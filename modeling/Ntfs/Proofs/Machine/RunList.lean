import Ntfs.Proofs.Machine.Fields
import Ntfs.Proofs.RunList.Grammar

/-!
# Run lists on the machine

A run list is read by its place in the attribute.  The bytes of a field are shifted to their places in
a word, and the sign of an offset is shifted in above them; a field has at most eight bytes, so no
shift is too wide.  The first cluster of a run is a signed word, and a list that would leave it stops
with a reason, not with a fault.
-/

namespace Ntfs.Machine

open Work

/-! ## Fields of a run -/

/-- The number of a field: each byte is shifted to its place and joined to those before it. -/
def unsignedFrom (place joined : Nat) : Bytes → Work Nat
  | [] => pure joined
  | b :: rest => do
    let shifted ← shiftLeft b.toNat (← mul 8 place)
    unsignedFrom (place + 1) (joined ||| shifted) rest

def unsigned (field : Bytes) : Work Nat := unsignedFrom 0 0 field

/-- The number of a field in two's complement: the sign is shifted in above the field. -/
def signed (field : Bytes) : Work Int := do
  let value ← unsigned field
  let bits ← mul field.length 8
  if bits < 64 ∧ field.getLast?.any (fun b => b &&& 0x80 != 0) = true then
    return asSigned (value ||| (← shiftLeft maxWord bits))
  else return asSigned value

theorem capacity_eq_shiftLeft (width : Nat) : Bytes.capacity width = 1 <<< (8 * width) := by
  rw [Nat.one_shiftLeft]
  induction width with
  | zero => rfl
  | succ width ih => rw [Bytes.capacity, ih, Nat.mul_succ, Nat.pow_add, Nat.mul_comm]

/-- Each byte joins a number that has no bits in its place, so nothing is carried. -/
theorem unsignedFrom_eq {place joined : Nat} {field : Bytes} (hplaces : place + field.length ≤ 8)
    (hjoined : joined < Bytes.capacity place) :
    unsignedFrom place joined field =
      done (.clean (joined + Bytes.capacity place * Bytes.toNatLE field)) := by
  have hcapacity (width : Nat) : Bytes.capacity width = 2 ^ (8 * width) := by
    rw [capacity_eq_shiftLeft, Nat.one_shiftLeft]
  simp only [hcapacity] at hjoined ⊢
  induction field generalizing place joined with
  | nil => rfl
  | cons b rest ih =>
      rw [List.length_cons] at hplaces
      have hb : b.toNat < 256 := b.toNat_lt
      have hnext : 2 ^ (8 * (place + 1)) = 2 ^ (8 * place) * 256 := by
        rw [Nat.mul_succ, Nat.pow_add]
      have hword : 2 ^ (8 * place) * 256 ≤ maxWord + 1 := by
        rw [← hnext]
        exact Nat.pow_le_pow_right (by decide) (show 8 * (place + 1) ≤ 64 by omega)
      have hshifted : b.toNat <<< (8 * place) % (maxWord + 1) = b.toNat <<< (8 * place) := by
        rw [Nat.shiftLeft_eq, Nat.mul_comm]
        refine Nat.mod_eq_of_lt (Nat.lt_of_lt_of_le ?_ hword)
        exact Nat.mul_lt_mul_of_pos_left hb (Nat.two_pow_pos _)
      have hor : joined ||| b.toNat <<< (8 * place) = joined + 2 ^ (8 * place) * b.toNat := by
        rw [Nat.or_comm, ← Nat.shiftLeft_add_eq_or_of_lt hjoined, Nat.shiftLeft_eq, Nat.add_comm,
          Nat.mul_comm]
      have hroom : joined + 2 ^ (8 * place) * b.toNat < 2 ^ (8 * (place + 1)) := by
        rw [hnext]
        calc joined + 2 ^ (8 * place) * b.toNat
          _ < 2 ^ (8 * place) + 2 ^ (8 * place) * b.toNat := Nat.add_lt_add_right hjoined _
          _ = 2 ^ (8 * place) * (b.toNat + 1) := by rw [Nat.mul_succ, Nat.add_comm]
          _ ≤ 2 ^ (8 * place) * 256 := Nat.mul_le_mul_left _ hb
      have hplace : 8 * place ≤ maxWord := by
        have : 64 ≤ maxWord := by decide
        omega
      rw [unsignedFrom, mul_of_le hplace, bind_eq_andThen, done_clean_andThen, shiftLeft,
        if_pos (by omega), hshifted, pure_eq_done, bind_eq_andThen, done_clean_andThen, hor,
        ih (by omega) hroom, hnext, Bytes.toNatLE, Nat.mul_add, Nat.mul_assoc, Nat.add_assoc]

theorem unsigned_eq {field : Bytes} (h : field.length ≤ 8) :
    unsigned field = done (.clean (Bytes.toNatLE field)) := by
  rw [unsigned, unsignedFrom_eq (by omega) (by decide), Bytes.capacity, Nat.one_mul, Nat.zero_add]

/-- The highest bit of the last byte of a field is that of its number. -/
theorem half_le_iff_last {field : Bytes} {last : UInt8} (h : field.getLast? = some last) :
    Bytes.capacity field.length ≤ 2 * Bytes.toNatLE field ↔ 0x80 ≤ last.toNat := by
  induction field with
  | nil => cases h
  | cons b rest ih =>
      have hb : b.toNat < 256 := b.toNat_lt
      cases rest with
      | nil =>
          obtain rfl : b = last := by simpa using h
          simp only [List.length_cons, List.length_nil, Bytes.capacity, Bytes.toNatLE]
          omega
      | cons b' rest' =>
          have hrest := ih (by simpa using h)
          have heven : Bytes.capacity (b' :: rest').length = 256 * Bytes.capacity rest'.length := rfl
          rw [← hrest, List.length_cons, Bytes.capacity, Bytes.toNatLE]
          omega

theorem and_0x80_ne_zero (b : UInt8) : (b &&& 0x80 != 0) = decide (0x80 ≤ b.toNat) := by
  have every : ∀ n : Fin 256, (UInt8.ofNat n &&& 0x80 != 0) =
      decide (0x80 ≤ (UInt8.ofNat n).toNat) := by
    decide +kernel
  simpa using every ⟨b.toNat, b.toNat_lt⟩

/-- The bits above a field, all of them set. -/
theorem signs_eq {width : Nat} (hpos : 0 < width) (h : width < 8) :
    maxWord <<< (width * 8) % (maxWord + 1) = (1 <<< (64 - 8 * width) - 1) <<< (8 * width) := by
  have every : ∀ n : Fin 8, 0 < n.val → maxWord <<< (n.val * 8) % (maxWord + 1) =
      (1 <<< (64 - 8 * n.val) - 1) <<< (8 * n.val) := by
    decide +kernel
  exact every ⟨width, h⟩ hpos

/-- A negative field is the number that it stands for once the bits above it are set. -/
theorem asSigned_or_signs {width value : Nat} (hpos : 0 < width) (h : width < 8)
    (hvalue : value < Bytes.capacity width) (hnegative : Bytes.capacity width ≤ 2 * value) :
    asSigned (value ||| maxWord <<< (width * 8) % (maxWord + 1)) =
      (value : Int) - Bytes.capacity width := by
  rw [capacity_eq_shiftLeft, Nat.one_shiftLeft] at hvalue hnegative ⊢
  have hword : (2 ^ (64 - 8 * width) - 1) * 2 ^ (8 * width) + 2 ^ (8 * width) =
      0x10000000000000000 := by
    rw [Nat.sub_one_mul, Nat.sub_add_cancel (Nat.le_mul_of_pos_left _ (Nat.two_pow_pos _)),
      ← Nat.pow_add, Nat.sub_add_cancel (by omega)]
  rw [signs_eq hpos h, Nat.one_shiftLeft, Nat.or_comm, ← Nat.shiftLeft_add_eq_or_of_lt hvalue,
    Nat.shiftLeft_eq]
  generalize (2 ^ (64 - 8 * width) - 1) * 2 ^ (8 * width) = signs at *
  generalize 2 ^ (8 * width) = bound at *
  rw [asSigned, if_neg (by omega)]
  omega

/-- Shifting the sign in above the field gives the number in two's complement. -/
theorem signed_eq {field : Bytes} (hpos : 0 < field.length) (h : field.length ≤ 8) :
    signed field = done (.clean (RunList.toIntLE field)) := by
  have hlt := Bytes.toNatLE_lt field
  obtain ⟨last, hlast⟩ : ∃ last, field.getLast? = some last :=
    ⟨_, List.getLast?_eq_some_getLast (List.ne_nil_of_length_pos hpos)⟩
  have hhalf := half_le_iff_last hlast
  have hbits : field.length * 8 ≤ maxWord := by
    have : 64 ≤ maxWord := by decide
    omega
  have hnegative : field.getLast?.any (fun b => b &&& 0x80 != 0) = true ↔
      Bytes.capacity field.length ≤ 2 * Bytes.toNatLE field := by
    rw [hlast, Option.any_some, and_0x80_ne_zero, decide_eq_true_eq, hhalf]
  rw [signed, unsigned_eq h, bind_eq_andThen, done_clean_andThen, mul_of_le hbits, bind_eq_andThen,
    done_clean_andThen]
  simp only [hnegative, RunList.toIntLE]
  by_cases hshort : field.length * 8 < 64 ∧ Bytes.capacity field.length ≤ 2 * Bytes.toNatLE field
  · obtain ⟨hwidth, hhalf⟩ := hshort
    have hvalue := asSigned_or_signs hpos (show field.length < 8 by omega) hlt hhalf
    rw [if_pos ⟨hwidth, hhalf⟩, if_neg (by omega), shiftLeft, if_pos hwidth, pure_eq_done,
      bind_eq_andThen, done_clean_andThen, hvalue]
    rfl
  · -- the field is positive, or it takes the whole word
    have hvalue : asSigned (Bytes.toNatLE field) =
        if 2 * (Bytes.toNatLE field : Int) < Bytes.capacity field.length
          then (Bytes.toNatLE field : Int)
          else Bytes.toNatLE field - (Bytes.capacity field.length : Int) := by
      rcases Nat.lt_or_eq_of_le h with hwidth | hwidth
      · have hpositive : 2 * Bytes.toNatLE field < Bytes.capacity field.length :=
          Nat.lt_of_not_le fun hhalf => hshort ⟨by omega, hhalf⟩
        have hcapacity := Bytes.capacity_le_of_le_eight h
        rw [asSigned, if_pos (by omega), if_pos (by omega)]
      · have hcapacity : Bytes.capacity field.length = 0x10000000000000000 := by
          rw [hwidth]
          rfl
        rw [hcapacity, asSigned]
        split <;> split <;> omega
    rw [if_neg hshort, hvalue]
    rfl

/-! ## Runs -/

/-- What stands at a place of a stored list.  A run ends at a later place. -/
inductive Front (raw : Bytes) (pos : Nat) where
  | run (r : Run) (lcn : Int) (next : Nat) (hnext : pos < next ∧ pos < raw.length)
  | finish
  | stop (reason : RunList.Stop)

/-- Read the offset of a run, which starts at `start`, after its control byte at `pos`. -/
def frontOffset (raw : Bytes) (start : Nat) {pos : Nat} (hpos : pos < raw.length)
    (hstart : pos < start) (lcn : Int) (length offsetSize : Nat) : Work (Front raw pos) := do
  match part? raw start (← add start offsetSize) with
  | none => pure (.stop .offsetCut)
  | some field => do
    let delta ← signed field
    let ⟨next, hnext⟩ ← addOn start offsetSize
    match checkedAddSigned? lcn delta with
    | none => pure (.stop (.outsideVolume delta))
    | some moved =>
      if 0 ≤ moved then
        pure (.run ⟨UInt64.ofNat length, Int64.ofInt delta, some (UInt64.ofNat moved.toNat)⟩
          moved next ⟨by omega, hpos⟩)
      else pure (.stop (.outsideVolume delta))

def frontFields (raw : Bytes) (start : Nat) {pos : Nat} (hpos : pos < raw.length)
    (hstart : pos < start) (lcn : Int) (lengthSize offsetSize : Nat) : Work (Front raw pos) := do
  match part? raw start (← add start lengthSize) with
  | none => pure (.stop .lengthCut)
  | some field => do
    let length ← unsigned field
    let ⟨next, hnext⟩ ← addOn start lengthSize
    if length = 0 then pure (.stop .zeroLength)
    else if offsetSize = 0 then
      pure (.run ⟨UInt64.ofNat length, 0, none⟩ lcn next ⟨by omega, hpos⟩)
    else frontOffset raw next hpos (by omega) lcn length offsetSize

def front (raw : Bytes) (pos : Nat) (lcn : Int) : Work (Front raw pos) :=
  if hpos : pos < raw.length then
    if raw[pos] = 0 then pure .finish
    else do
      let ⟨start, hstart⟩ ← addOn pos 1
      let offsetSize ← shiftRight raw[pos].toNat 4
      let lengthSize := raw[pos].toNat &&& 0x0F
      if lengthSize = 0 ∨ 8 < lengthSize ∨ 8 < offsetSize then
        pure (.stop (.controlByte raw[pos]))
      else frontFields raw start hpos (by omega) lcn lengthSize offsetSize
  else pure (.stop .unterminated)

/-- The runs from a place on, and why reading stopped if it did not reach the end marker. -/
def runsFrom (raw : Bytes) (pos : Nat) (lcn : Int) : Work (List Run × Option RunList.Stop) := do
  match ← front raw pos lcn with
  | .run r lcn next _ => do
    let (runs, reason) ← runsFrom raw next lcn
    return (r :: runs, reason)
  | .finish => pure ([], none)
  | .stop reason => pure ([], some reason)
termination_by raw.length - pos
decreasing_by omega

def runList (raw : Bytes) : Work RunList := do
  let (runs, reason) ← runsFrom raw 0 0
  return { runs, complete := reason.isNone, stopReason := reason.map RunList.Stop.message }

/-- What the library reads there. -/
def Front.plain {raw : Bytes} {pos : Nat} : Front raw pos → RunList.Front
  | .run r lcn next _ => .run r lcn.toNat (raw.drop next)
  | .finish => .finish
  | .stop reason => .stop reason

variable {raw : Bytes} {pos lcn lengthSize offsetSize : Nat}

/-- The first cluster of a run is a signed word and not negative. -/
def Front.InRange {raw : Bytes} {pos : Nat} : Front raw pos → Prop
  | .run _ lcn _ _ => 0 ≤ lcn ∧ lcn < 0x8000000000000000
  | _ => True

theorem frontOffset_eq (hraw : raw.length ≤ maxSize) {start : Nat} (hpos : pos < raw.length)
    (hstart : pos < start) (hinside : start ≤ raw.length)
    (hoffset : 0 < offsetSize ∧ offsetSize ≤ 8) (lcn length : Nat) :
    ∃ f, frontOffset raw start hpos hstart lcn length offsetSize = done (.clean f) ∧ f.InRange ∧
      f.plain =
        if Bytes.shorterThan (raw.drop start) offsetSize then .stop .offsetCut
        else
          let delta := RunList.toIntLE ((raw.drop start).take offsetSize)
          let next := lcn + delta
          if 0 ≤ next ∧ next < 0x8000000000000000 then
            .run ⟨UInt64.ofNat length, Int64.ofInt delta, some (UInt64.ofNat next.toNat)⟩ next.toNat
              ((raw.drop start).drop offsetSize)
          else .stop (.outsideVolume delta) := by
  have hmax : maxSize + 16 ≤ maxWord := by decide
  have hrest : (raw.drop start).length = raw.length - start := List.length_drop
  have hadd := add_of_le (show start + offsetSize ≤ maxWord by omega)
  have haddOn := addOn_of_le (show start + offsetSize ≤ maxWord by omega)
  by_cases hcut : raw.length < start + offsetSize
  · refine ⟨.stop .offsetCut, ?_, trivial, ?_⟩
    · simp only [frontOffset, hadd, part?_of_lt hcut, bind_eq_andThen, done_clean_andThen,
        pure_eq_done]
    · rw [if_pos (Bytes.shorterThan_iff.mpr (by omega))]
      rfl
  · have hsize : ((raw.drop start).take offsetSize).length = offsetSize := by
      rw [List.length_take]
      omega
    have hsigned := signed_eq (hsize.symm ▸ hoffset.1) (hsize.symm ▸ hoffset.2)
    rw [if_neg fun hshort => hcut (by have := Bytes.shorterThan_iff.mp hshort; omega)]
    simp only [frontOffset, hadd, haddOn, part?_of_le (Nat.le_of_not_lt hcut), hsigned,
      bind_eq_andThen, done_clean_andThen, pure_eq_done]
    generalize RunList.toIntLE ((raw.drop start).take offsetSize) = delta
    by_cases hnext : 0 ≤ (lcn : Int) + delta ∧ (lcn : Int) + delta < 0x8000000000000000
    · have hsome : checkedAddSigned? lcn delta = some (lcn + delta) :=
        if_pos ⟨by omega, hnext.2⟩
      simp only [hsome, if_pos hnext.1, if_pos hnext]
      refine ⟨_, rfl, hnext, ?_⟩
      rw [List.drop_drop]
      rfl
    · rw [if_neg hnext]
      refine ⟨.stop (.outsideVolume delta), ?_, trivial, rfl⟩
      rw [checkedAddSigned?]
      by_cases hsigned : IsSigned (lcn + delta)
      · simp only [if_pos hsigned, if_neg fun hpos => hnext ⟨hpos, hsigned.2⟩]
      · simp only [if_neg hsigned]

theorem frontFields_eq (hraw : raw.length ≤ maxSize) {start : Nat} (hpos : pos < raw.length)
    (hstart : pos < start) (hlength : 0 < lengthSize ∧ lengthSize ≤ 8) (hoffset : offsetSize ≤ 8)
    (hinside : start ≤ raw.length) (hlcn : lcn < 0x8000000000000000) :
    ∃ f, frontFields raw start hpos hstart lcn lengthSize offsetSize = done (.clean f) ∧ f.InRange ∧
      f.plain = RunList.frontFields lcn lengthSize offsetSize (raw.drop start) := by
  have hmax : maxSize + 16 ≤ maxWord := by decide
  have hrest : (raw.drop start).length = raw.length - start := List.length_drop
  have hadd := add_of_le (show start + lengthSize ≤ maxWord by omega)
  have haddOn := addOn_of_le (show start + lengthSize ≤ maxWord by omega)
  rw [RunList.frontFields]
  by_cases hcut : raw.length < start + lengthSize
  · refine ⟨.stop .lengthCut, ?_, trivial, ?_⟩
    · simp only [frontFields, hadd, part?_of_lt hcut, bind_eq_andThen, done_clean_andThen,
        pure_eq_done]
    · rw [if_pos (Bytes.shorterThan_iff.mpr (by omega))]
      rfl
  · have hsize : ((raw.drop start).take lengthSize).length ≤ 8 :=
      Nat.le_trans (List.length_take_le ..) hlength.2
    rw [if_neg fun hshort => hcut (by have := Bytes.shorterThan_iff.mp hshort; omega)]
    simp only [frontFields, hadd, haddOn, part?_of_le (Nat.le_of_not_lt hcut), unsigned_eq hsize,
      bind_eq_andThen, done_clean_andThen, pure_eq_done]
    by_cases hzero : Bytes.toNatLE ((raw.drop start).take lengthSize) = 0
    · refine ⟨.stop .zeroLength, by rw [if_pos hzero], trivial, ?_⟩
      rw [if_pos hzero]
      rfl
    · rw [if_neg hzero, if_neg hzero]
      by_cases hsparse : offsetSize = 0
      · rw [if_pos hsparse, if_pos hsparse]
        refine ⟨_, rfl, ⟨by omega, by omega⟩, ?_⟩
        rw [List.drop_drop]
        rfl
      · rw [if_neg hsparse, if_neg hsparse, List.drop_drop]
        exact frontOffset_eq hraw hpos (by omega) (Nat.le_of_not_lt hcut)
          ⟨Nat.pos_of_ne_zero hsparse, hoffset⟩ lcn _

/-- What stands at a place is read on the machine as in the library, and the next cluster stays a signed
word. -/
theorem front_eq (hraw : raw.length ≤ maxSize) (pos : Nat) (hlcn : lcn < 0x8000000000000000) :
    ∃ f, front raw pos lcn = done (.clean f) ∧ f.InRange ∧
      f.plain = RunList.front lcn (raw.drop pos) := by
  have hmax : maxSize + 16 ≤ maxWord := by decide
  by_cases hpos : pos < raw.length
  · have hlow : raw[pos].toNat &&& 0x0F = raw[pos].toNat % 16 :=
      Nat.and_two_pow_sub_one_eq_mod raw[pos].toNat 4
    have hhigh : shiftRight raw[pos].toNat 4 = done (.clean (raw[pos].toNat / 16)) := by
      rw [shiftRight, if_pos (by decide), Nat.shiftRight_eq_div_pow]
      rfl
    rw [front, dif_pos hpos, List.drop_eq_getElem_cons hpos, RunList.front]
    by_cases hend : raw[pos] = 0
    · rw [if_pos hend, if_pos hend]
      exact ⟨.finish, rfl, trivial, rfl⟩
    · rw [if_neg hend, if_neg hend]
      simp only [addOn_of_le (show pos + 1 ≤ maxWord by omega), hhigh, hlow, bind_eq_andThen,
        done_clean_andThen, pure_eq_done]
      by_cases hcontrol : raw[pos].toNat % 16 = 0 ∨ 8 < raw[pos].toNat % 16 ∨
          8 < raw[pos].toNat / 16
      · rw [if_pos hcontrol, if_pos hcontrol]
        exact ⟨_, rfl, trivial, rfl⟩
      · rw [if_neg hcontrol, if_neg hcontrol]
        have hlength : 0 < raw[pos].toNat % 16 ∧ raw[pos].toNat % 16 ≤ 8 := by omega
        have hoffset : raw[pos].toNat / 16 ≤ 8 := by omega
        exact frontFields_eq hraw hpos (Nat.lt_succ_self pos) hlength hoffset hpos hlcn
  · rw [front, dif_neg hpos, List.drop_eq_nil_of_le (Nat.le_of_not_lt hpos)]
    exact ⟨_, rfl, trivial, rfl⟩

theorem runsFrom_eq (hraw : raw.length ≤ maxSize) (pos : Nat) {lcn : Nat}
    (hlcn : lcn < 0x8000000000000000) :
    runsFrom raw pos lcn = done (.clean (RunList.decodeFrom lcn (raw.drop pos))) := by
  obtain ⟨f, hf, hrange, hplain⟩ := front_eq hraw pos hlcn
  rw [runsFrom, hf, bind_eq_andThen, done_clean_andThen]
  cases f with
  | finish =>
      rw [RunList.decodeFrom_of_finish hplain.symm]
      rfl
  | stop reason =>
      rw [RunList.decodeFrom_of_stop hplain.symm]
      rfl
  | run r moved next hnext =>
      obtain ⟨hpos, hmoved⟩ := hrange
      have hrest := runsFrom_eq hraw next (show moved.toNat < 0x8000000000000000 by omega)
      rw [Int.toNat_of_nonneg hpos] at hrest
      rw [RunList.decodeFrom_of_run hplain.symm]
      simp only [hrest, bind_eq_andThen, done_clean_andThen]
      rfl
termination_by raw.length - pos

/-- Reading a run list on the machine never fails, and gives what the library reads. -/
theorem runList_eq (hraw : raw.length ≤ maxSize) :
    runList raw = done (.clean (RunList.decode raw)) := by
  have hruns := runsFrom_eq hraw 0 (show 0 < 0x8000000000000000 by decide)
  rw [List.drop_zero] at hruns
  rw [runList, show (0 : Int) = ((0 : Nat) : Int) from rfl, hruns, bind_eq_andThen,
    done_clean_andThen]
  rfl

end Ntfs.Machine
