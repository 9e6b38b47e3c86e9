import Ntfs.Note

/-!
# A machine with checked operations

The decoders of this library compute with numbers and byte strings of any size.  A machine has 64-bit
words, and it stops at a sum that overflows, a difference below zero, a shift by the width of a word
or an index outside a string.  `Work` is what such a machine does: it ends with a result and the notes
taken on the way, or with a fault.  Each operation has its law, which says when it is done and what it
gives.
-/

namespace Ntfs.Machine

/-- The most bytes a string may have: its length is a signed word. -/
def maxSize : Nat := 0x7FFFFFFFFFFFFFFF

/-- What makes the machine stop. -/
inductive Fault where
  /-- The result of an operation does not fit its type. -/
  | overflow
  /-- A shift by the width of a word or more. -/
  | shift
  /-- An index or a part that does not lie inside its string. -/
  | outside
  /-- A field that an earlier check has promised is not there. -/
  | absent
  /-- A string is cut into pieces of no bytes. -/
  | emptyPieces
  deriving DecidableEq, Repr

/-- Work on the machine. -/
inductive Work (α : Type) where
  /-- It ends with a result and notes. -/
  | done (x : Noted α)
  /-- It ends with a fault. -/
  | stop (fault : Fault)

namespace Work

variable {α β : Type}

def andThen (x : Work α) (f : α → Work β) : Work β :=
  match x with
  | stop fault => stop fault
  | done a =>
    match f a.value with
    | stop fault => stop fault
    | done b => done ⟨b.value, a.notes ++ b.notes⟩

instance : Monad Work where
  pure a := done (.clean a)
  bind := andThen

def tell (n : Note) : Work Unit := done (.note () n)

/-- Take the notes of a piece of work as part of its result. -/
def withNotes (x : Work α) : Work (Noted α) :=
  match x with
  | stop fault => stop fault
  | done a => done (.clean a)

@[simp]
theorem pure_eq_done (a : α) : (pure a : Work α) = done (.clean a) := rfl

@[simp]
theorem bind_eq_andThen (x : Work α) (f : α → Work β) : x >>= f = x.andThen f := rfl

@[simp]
theorem done_clean_andThen (a : α) (f : α → Work β) : (done (.clean a)).andThen f = f a := by
  cases h : f a <;> simp [andThen, Noted.clean, h]

/-- Work that is done is followed by work that is done. -/
theorem done_andThen_of_done {x : Noted α} {f : α → Work β} {b : β} {notes : List Note}
    (h : f x.value = done ⟨b, notes⟩) : (done x).andThen f = done ⟨b, x.notes ++ notes⟩ := by
  simp only [andThen, h]

/-- Work without notes adds none to those taken before it. -/
theorem done_andThen_of_clean {x : Noted α} {f : α → Work β} {b : β}
    (h : f x.value = done (.clean b)) : (done x).andThen f = done ⟨b, x.notes⟩ := by
  rw [done_andThen_of_done h, List.append_nil]

/-- An item is followed by the others. -/
theorem done_andThen_cons {x : Noted α} {xs : Noted (List α)} {f : α → Work (List α)}
    (h : f x.value = done (xs.map fun rest => x.value :: rest)) :
    (done x).andThen f = done (x.cons xs) :=
  done_andThen_of_done h

@[simp]
theorem done_andThen_pure (x : Noted α) (f : α → β) :
    ((done x).andThen fun a => done (.clean (f a))) = done (x.map f) := by
  simp [andThen, Noted.clean, Noted.map]

theorem done_andThen_done (x : Noted α) (f : α → Noted β) :
    ((done x).andThen fun a => done (f a)) =
      done ⟨(f x.value).value, x.notes ++ (f x.value).notes⟩ := rfl

@[simp]
theorem tell_andThen_done (n : Note) (x : Noted β) :
    ((tell n).andThen fun _ => done x) = done ⟨x.value, n :: x.notes⟩ := rfl

end Work

open Work

variable {α β : Type}

/-! ## Words -/

def add (a b : Nat) : Work Nat := if a + b ≤ maxWord then pure (a + b) else stop .overflow

/-- The sum of two words, and that it is the sum. -/
def addOn (a b : Nat) : Work { c : Nat // c = a + b } :=
  if a + b ≤ maxWord then pure ⟨a + b, rfl⟩ else stop .overflow

def sub (a b : Nat) : Work Nat := if b ≤ a then pure (a - b) else stop .overflow

def subOn (a b : Nat) : Work { c : Nat // c = a - b } :=
  if b ≤ a then pure ⟨a - b, rfl⟩ else stop .overflow

def mul (a b : Nat) : Work Nat := if a * b ≤ maxWord then pure (a * b) else stop .overflow

/-- A word with its bits shifted to higher places; those shifted out are lost. -/
def shiftLeft (a places : Nat) : Work Nat :=
  if places < 64 then pure (a <<< places % (maxWord + 1)) else stop .shift

def shiftRight (a places : Nat) : Work Nat :=
  if places < 64 then pure (a >>> places) else stop .shift

def checkedAdd? (a b : Nat) : Option Nat := if a + b ≤ maxWord then some (a + b) else none

def checkedSub? (a b : Nat) : Option Nat := if b ≤ a then some (a - b) else none

def checkedMul? (a b : Nat) : Option Nat := if a * b ≤ maxWord then some (a * b) else none

def saturatingAdd (a b : Nat) : Nat := min (a + b) maxWord

def saturatingMul (a b : Nat) : Nat := min (a * b) maxWord

variable {a b : Nat}

theorem add_of_le (h : a + b ≤ maxWord) : add a b = done (.clean (a + b)) := if_pos h

theorem addOn_of_le (h : a + b ≤ maxWord) : addOn a b = done (.clean ⟨a + b, rfl⟩) := if_pos h

theorem sub_of_le (h : b ≤ a) : sub a b = done (.clean (a - b)) := if_pos h

theorem subOn_of_le (h : b ≤ a) : subOn a b = done (.clean ⟨a - b, rfl⟩) := if_pos h

theorem mul_of_le (h : a * b ≤ maxWord) : mul a b = done (.clean (a * b)) := if_pos h

theorem checkedAdd?_of_le (h : a + b ≤ maxWord) : checkedAdd? a b = some (a + b) := if_pos h

/-- The machine does stop. -/
example : add maxWord 1 = stop .overflow := rfl

theorem eq_add_of_checkedAdd? {c : Nat} (h : checkedAdd? a b = some c) : c = a + b := by
  rw [checkedAdd?] at h
  split at h
  · exact (Option.some.inj h).symm
  · cases h

/-! ## Signed words -/

/-- The number that a word stands for as a signed one. -/
def asSigned (a : Nat) : Int := if a < 0x8000000000000000 then a else (a : Int) - 0x10000000000000000

def IsSigned (a : Int) : Prop := -0x8000000000000000 ≤ a ∧ a < 0x8000000000000000

instance (a : Int) : Decidable (IsSigned a) := inferInstanceAs (Decidable (_ ∧ _))

def subSigned (a b : Int) : Work Int := if IsSigned (a - b) then pure (a - b) else stop .overflow

def mulSigned (a b : Int) : Work Int := if IsSigned (a * b) then pure (a * b) else stop .overflow

def checkedAddSigned? (a b : Int) : Option Int := if IsSigned (a + b) then some (a + b) else none

/-! ## Byte strings -/

def index (raw : Bytes) (place : Nat) : Work UInt8 :=
  match raw[place]? with
  | some b => pure b
  | none => stop .outside

def put (raw : Bytes) (place : Nat) (b : UInt8) : Work Bytes :=
  if place < raw.length then pure (raw.set place b) else stop .outside

/-- The bytes from one place up to another, if they exist. -/
def part? (raw : Bytes) (start stop : Nat) : Option Bytes :=
  if start ≤ stop ∧ stop ≤ raw.length then some ((raw.drop start).take (stop - start)) else none

/-- The bytes from one place up to another. -/
def slice (raw : Bytes) (start stop : Nat) : Work Bytes :=
  match part? raw start stop with
  | some part => pure part
  | none => Work.stop .outside

variable {raw : Bytes} {start stop place : Nat}

theorem index_of_lt (h : place < raw.length) :
    index raw place = done (.clean (Bytes.u8 raw place)) := by
  have hbyte : Bytes.u8 raw place = raw[place] := by
    rw [Bytes.u8, List.getD_eq_getElem?_getD, List.getElem?_eq_getElem h, Option.getD_some]
  rw [index, List.getElem?_eq_getElem h, hbyte]
  rfl

theorem put_of_lt (h : place < raw.length) (b : UInt8) :
    put raw place b = done (.clean (raw.set place b)) := if_pos h

theorem slice_of_le (hstart : start ≤ stop) (hstop : stop ≤ raw.length) :
    slice raw start stop = done (.clean ((raw.drop start).take (stop - start))) := by
  rw [slice, part?, if_pos ⟨hstart, hstop⟩]
  rfl

/-- A part that would run past the end is cut there. -/
theorem slice_min {length : Nat} (h : start ≤ raw.length) :
    slice raw start (min (start + length) raw.length) =
      done (.clean ((raw.drop start).take length)) := by
  have htake : (raw.drop start).take (min (start + length) raw.length - start) =
      (raw.drop start).take length := by
    rw [List.take_eq_take_iff, List.length_drop]
    omega
  rw [slice_of_le (by omega) (Nat.min_le_right ..), htake]

/-- The bytes from a place on. -/
theorem part?_to_end (h : start ≤ raw.length) : part? raw start raw.length = some (raw.drop start) := by
  rw [part?, if_pos ⟨h, Nat.le_refl _⟩, List.take_of_length_le (Nat.le_of_eq List.length_drop)]

theorem part?_past_end (h : raw.length < start) : part? raw start raw.length = none :=
  if_neg fun hinside => Nat.not_lt_of_le hinside.1 h

theorem slice_to_end (h : start ≤ raw.length) :
    slice raw start raw.length = done (.clean (raw.drop start)) := by
  rw [slice, part?_to_end h]
  rfl

theorem part?_of_le {offset length : Nat} (h : offset + length ≤ raw.length) :
    part? raw offset (offset + length) = some ((raw.drop offset).take length) := by
  rw [part?, if_pos ⟨Nat.le_add_right .., h⟩, Nat.add_sub_cancel_left]

theorem part?_of_lt (h : raw.length < stop) : part? raw start stop = none :=
  if_neg fun hinside => Nat.not_lt_of_le hinside.2 h

/-- A part given by its length is there when it ends inside. -/
theorem part?_eq_slice? (raw : Bytes) (offset length : Nat) :
    part? raw offset (offset + length) = Bytes.slice? raw offset length := by
  by_cases h : raw.length < offset + length
  · rw [part?_of_lt h, Bytes.slice?, if_pos (Bytes.shorterThan_iff.mpr h)]
  · rw [part?_of_le (Nat.le_of_not_lt h), Bytes.slice?, if_neg (mt Bytes.shorterThan_iff.mp h)]

end Ntfs.Machine
