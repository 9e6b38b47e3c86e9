import Ntfs.FileReference
import Ntfs.Proofs.Machine.Basic
import Ntfs.Text.Utf16
import Ntfs.Time.Stamps

/-!
# Fields on the machine

A field of a fixed width is cut out of its string, where the end of it must not overflow, and read
then.  References, times and text are computed from fields.  In a string of at most `maxSize` bytes no
such step fails, and each gives what the library reads there.
-/

namespace Ntfs.Machine

open Work

/-! ## Numbers -/

/-- The number stored in a string of exactly `width` bytes. -/
def readLE (width : Nat) (field : Bytes) : Work Nat :=
  if field.length = width then pure (Bytes.toNatLE field) else stop .outside

def word? (raw : Bytes) (offset width : Nat) : Work (Option Nat) :=
  match checkedAdd? offset width with
  | none => pure none
  | some last =>
    match part? raw offset last with
    | none => pure none
    | some field => do return some (← readLE width field)

/-- The number of a field that an earlier check has promised. -/
def promised {α : Type} : Option α → Work α
  | some a => pure a
  | none => stop .absent

def u16? (raw : Bytes) (offset : Nat) : Work (Option UInt16) := do
  return (← word? raw offset 2).map UInt16.ofNat

def u32? (raw : Bytes) (offset : Nat) : Work (Option UInt32) := do
  return (← word? raw offset 4).map UInt32.ofNat

def u64? (raw : Bytes) (offset : Nat) : Work (Option UInt64) := do
  return (← word? raw offset 8).map UInt64.ofNat

/-- A field that reads as zero when it is not there. -/
def u16 (raw : Bytes) (offset : Nat) : Work UInt16 := do return (← u16? raw offset).getD 0

@[inherit_doc u16]
def u32 (raw : Bytes) (offset : Nat) : Work UInt32 := do return (← u32? raw offset).getD 0

@[inherit_doc u16]
def u64 (raw : Bytes) (offset : Nat) : Work UInt64 := do return (← u64? raw offset).getD 0

variable {raw : Bytes} {offset : Nat}

/-- A field is found on the machine where the library finds it; the sum of its place and width is checked.
-/
theorem word?_eq (hraw : raw.length ≤ maxSize) (offset : Nat) {width : Nat} (hwidth : 0 < width) :
    word? raw offset width = done (.clean (Bytes.word? raw offset width)) := by
  have hmax : maxSize ≤ maxWord := by decide
  by_cases hroom : offset + width ≤ raw.length
  · have hwhole : ((raw.drop offset).take width).length = width := by
      rw [List.length_take, List.length_drop]
      omega
    simp only [word?, checkedAdd?_of_le (show offset + width ≤ maxWord by omega),
      part?_of_le hroom, readLE, Bytes.word?, if_pos hwhole, pure_eq_done, bind_eq_andThen,
      done_clean_andThen]
  · have hnone : Bytes.word? raw offset width = none :=
      (Bytes.word?_eq_none_iff hwidth).mpr (Nat.lt_of_not_le hroom)
    rw [hnone, word?, checkedAdd?]
    by_cases hword : offset + width ≤ maxWord
    · simp only [if_pos hword, part?_of_lt (Nat.lt_of_not_le hroom), pure_eq_done]
    · simp only [if_neg hword, pure_eq_done]

section Numbers

variable (hraw : raw.length ≤ maxSize) (offset : Nat)
include hraw

theorem u16?_eq : u16? raw offset = done (.clean (Bytes.u16? raw offset)) := by
  simp only [u16?, word?_eq hraw offset (show 0 < 2 by decide), bind_eq_andThen, done_clean_andThen]
  rfl

theorem u32?_eq : u32? raw offset = done (.clean (Bytes.u32? raw offset)) := by
  simp only [u32?, word?_eq hraw offset (show 0 < 4 by decide), bind_eq_andThen, done_clean_andThen]
  rfl

theorem u64?_eq : u64? raw offset = done (.clean (Bytes.u64? raw offset)) := by
  simp only [u64?, word?_eq hraw offset (show 0 < 8 by decide), bind_eq_andThen, done_clean_andThen]
  rfl

theorem u16_eq : u16 raw offset = done (.clean (Bytes.u16 raw offset)) := by
  simp only [u16, u16?_eq hraw, bind_eq_andThen, done_clean_andThen]
  rfl

theorem u32_eq : u32 raw offset = done (.clean (Bytes.u32 raw offset)) := by
  simp only [u32, u32?_eq hraw, bind_eq_andThen, done_clean_andThen]
  rfl

theorem u64_eq : u64 raw offset = done (.clean (Bytes.u64 raw offset)) := by
  simp only [u64, u64?_eq hraw, bind_eq_andThen, done_clean_andThen]
  rfl

end Numbers

/-- A field that ends inside its string is there. -/
theorem word?_eq_some {width : Nat} (h : offset + width ≤ raw.length) :
    Bytes.word? raw offset width = some (Bytes.toNatLE ((raw.drop offset).take width)) := by
  have hwhole : ((raw.drop offset).take width).length = width := by
    rw [List.length_take, List.length_drop]
    omega
  exact if_pos hwhole

theorem promised_u16 (h : offset + 2 ≤ raw.length) :
    promised (Bytes.u16? raw offset) = done (.clean (Bytes.u16 raw offset)) := by
  rw [Bytes.u16, Bytes.u16?, word?_eq_some h]
  rfl

theorem promised_u32 (h : offset + 4 ≤ raw.length) :
    promised (Bytes.u32? raw offset) = done (.clean (Bytes.u32 raw offset)) := by
  rw [Bytes.u32, Bytes.u32?, word?_eq_some h]
  rfl

theorem promised_u64 (h : offset + 8 ≤ raw.length) :
    promised (Bytes.u64? raw offset) = done (.clean (Bytes.u64 raw offset)) := by
  rw [Bytes.u64, Bytes.u64?, word?_eq_some h]
  rfl

/-! ## References -/

def reference (word : UInt64) : Work FileReference := do
  let sequence ← shiftRight word.toNat 48
  return ⟨UInt64.ofNat (word.toNat &&& 0xFFFFFFFFFFFF), UInt16.ofNat sequence⟩

theorem reference_eq (word : UInt64) :
    reference word = done (.clean (FileReference.ofWord word)) := by
  have hrecord : word.toNat &&& 0xFFFFFFFFFFFF = word.toNat % FileReference.recordBound :=
    Nat.and_two_pow_sub_one_eq_mod word.toNat 48
  have hsequence : word.toNat >>> 48 = word.toNat / FileReference.recordBound :=
    Nat.shiftRight_eq_div_pow word.toNat 48
  rw [FileReference.ofWord, ← hrecord, ← hsequence]
  rfl

/-! ## Text -/

/-- The pairs of bytes in a string; an odd byte at the end is left out. -/
def pairs : Bytes → List Bytes
  | low :: high :: rest => [low, high] :: pairs rest
  | _ => []

def unitsOf : List Bytes → Work (List UInt16)
  | [] => pure []
  | pair :: rest => do
    let low ← index pair 0
    let high ← index pair 1
    let units ← unitsOf rest
    return UInt16.ofNat (Bytes.toNatLE [low, high]) :: units

def text (raw : Bytes) : Work String := do
  return String.ofList (Utf16.chars (← unitsOf (pairs raw)))

/-- Pairs of bytes are read as the units that the library reads. -/
theorem unitsOf_pairs (raw : Bytes) : unitsOf (pairs raw) = done (.clean (Utf16.units raw)) := by
  induction raw using pairs.induct with
  | case1 low high rest ih =>
      simp only [pairs, unitsOf, ih, pure_eq_done, bind_eq_andThen,
        index_of_lt (show 0 < [low, high].length from Nat.zero_lt_succ 1),
        index_of_lt (show 1 < [low, high].length from Nat.lt_succ_self 1), done_clean_andThen]
      rfl
  | case2 raw hraw =>
      have hpairs : pairs raw = [] := by
        unfold pairs
        split
        · rename_i low high rest
          exact absurd rfl (hraw low high rest)
        · rfl
      have hunits : Utf16.units raw = [] := by
        unfold Utf16.units
        split
        · rename_i low high rest
          exact absurd rfl (hraw low high rest)
        · rfl
      rw [hpairs, hunits]
      rfl

theorem text_eq (raw : Bytes) : text raw = done (.clean (Utf16.decode raw)) := by
  simp only [text, unitsOf_pairs, bind_eq_andThen, done_clean_andThen]
  rfl

/-! ## Times -/

/-- The instant of a file time; none if it was never set. -/
def instant (ticks : UInt64) : Work (Option Instant) :=
  if ticks = 0 then pure none
  else do
    let micros ← subSigned (asSigned (ticks.toNat / 10)) Instant.microsTo1970
    let nanos ← mulSigned (micros % 1000000) 1000
    return some ⟨micros / 1000000, (nanos % 0x100000000).toNat⟩

/-- A file time is taken apart without leaving a word. -/
theorem instant_eq (ticks : UInt64) : instant ticks = done (.clean (Instant.ofFiletime ticks)) := by
  rw [instant, Instant.ofFiletime]
  by_cases hzero : ticks = 0
  · rw [if_pos hzero, if_pos hzero]
    rfl
  · have hticks : ticks.toNat < 18446744073709551616 := ticks.toNat_lt
    have hsigned : asSigned (ticks.toNat / 10) = ((ticks.toNat / 10 : Nat) : Int) :=
      if_pos (by omega)
    rw [if_neg hzero, if_neg hzero, hsigned]
    generalize hmicros : ((ticks.toNat / 10 : Nat) : Int) - Instant.microsTo1970 = micros
    have hrange : IsSigned micros := by
      simp only [Instant.microsTo1970] at hmicros
      constructor <;> omega
    have hnonneg := Int.emod_nonneg micros (show (1000000 : Int) ≠ 0 by decide)
    have hbelow := Int.emod_lt_of_pos micros (show (0 : Int) < 1000000 by decide)
    have hnanos : IsSigned (micros % 1000000 * 1000) := by
      constructor <;> omega
    have hcut : (micros % 1000000 * 1000 % 0x100000000).toNat = (micros % 1000000).toNat * 1000 := by
      rw [Int.emod_eq_of_lt (by omega) (by omega), Int.toNat_mul hnonneg (by decide)]
      rfl
    simp only [subSigned, hmicros, if_pos hrange, mulSigned, if_pos hnanos, hcut, pure_eq_done,
      bind_eq_andThen, done_clean_andThen]
    rfl

def stamp (raw : Bytes) (offset : Nat) : Work (Option Instant) := do
  match ← u64? raw offset with
  | some ticks => instant ticks
  | none => pure none

/-- The four file times stored from `offset` on. -/
def stamps (raw : Bytes) (offset : Nat) : Work Stamps := do
  let created ← stamp raw offset
  let modified ← stamp raw (offset + 8)
  let recordModified ← stamp raw (offset + 16)
  let accessed ← stamp raw (offset + 24)
  return ⟨created, modified, recordModified, accessed⟩

theorem stamp_eq (hraw : raw.length ≤ maxSize) (offset : Nat) :
    stamp raw offset = done (.clean (Instant.ofFiletime (Bytes.u64 raw offset))) := by
  simp only [stamp, u64?_eq hraw, bind_eq_andThen, done_clean_andThen, Bytes.u64]
  cases Bytes.u64? raw offset with
  | none => rfl
  | some ticks => exact instant_eq ticks

theorem stamps_eq (hraw : raw.length ≤ maxSize) (offset : Nat) :
    stamps raw offset = done (.clean (Stamps.ofBytes raw offset)) := by
  simp only [stamps, stamp_eq hraw, pure_eq_done, bind_eq_andThen, done_clean_andThen]
  rfl

end Ntfs.Machine
