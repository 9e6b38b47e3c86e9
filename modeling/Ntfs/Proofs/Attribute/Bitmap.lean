import Mathlib.Data.Nat.Bitwise
import Mathlib.Data.Nat.Count
import Ntfs.Attribute.Bitmap
import Ntfs.Proofs.Bytes.Window
import Ntfs.Proofs.Machine.Basic

/-!
# Bits are counted as they are found

The bits of a map are the binary digits of the number that its bytes store (`isSet_eq_testBit`).  So no bit
past the end is set, and the digits of a map behind another one start where those of the first end.
`ones_counts_isSet` puts this together with the count, which goes byte by byte, and with a machine that
shifts one bit over a byte and adds up in a word.
-/

namespace Ntfs

/-! ## The digits of a stored number -/

namespace Bytes

theorem capacity_eq_two_pow (width : Nat) : capacity width = 2 ^ (8 * width) := by
  induction width with
  | zero => rfl
  | succ width ih => rw [capacity, ih, Nat.mul_succ, Nat.pow_add, Nat.mul_comm]

theorem toNatLE_lt_two_pow (raw : Bytes) : toNatLE raw < 2 ^ (8 * raw.length) := by
  rw [← capacity_eq_two_pow]
  exact toNatLE_lt raw

/-- The bytes behind others store the higher digits. -/
theorem toNatLE_append (front back : Bytes) :
    toNatLE (front ++ back) = 2 ^ (8 * front.length) * toNatLE back + toNatLE front := by
  rw [← capacity_eq_two_pow]
  induction front with
  | nil => simp [capacity, toNatLE]
  | cons b rest ih =>
    rw [List.cons_append, toNatLE, toNatLE, ih, List.length_cons, capacity, Nat.mul_add, Nat.mul_assoc]
    omega

/-- A digit stands in one byte. -/
theorem testBit_toNatLE (raw : Bytes) (place : Nat) :
    (toNatLE raw).testBit place = (raw.getD (place / 8) 0).toNat.testBit (place % 8) := by
  induction raw generalizing place with
  | nil => simp [toNatLE]
  | cons b rest ih =>
    have hb : b.toNat < 2 ^ 8 := b.toNat_lt
    rw [toNatLE, Nat.add_comm, show 256 = 2 ^ 8 from rfl, Nat.testBit_two_pow_mul_add _ hb]
    split
    · rename_i hfirst
      rw [Nat.div_eq_of_lt hfirst, Nat.mod_eq_of_lt hfirst, List.getD_cons_zero]
    · rename_i hlater
      have hle : 8 ≤ place := Nat.not_lt.mp hlater
      rw [ih, Nat.div_eq_sub_div (by decide) hle, Nat.mod_eq_sub_mod hle, List.getD_cons_succ]

end Bytes

namespace Bitmap

variable {m : Bitmap} {n : Nat}

/-! ## Bits -/

/-- One map behind another. -/
instance : Append Bitmap where
  append a b := ⟨a.bytes ++ b.bytes⟩

theorem toList_bytes_append (a b : Bitmap) :
    (a ++ b).bytes.toList = a.bytes.toList ++ b.bytes.toList := Buffer.toList_append _ _

theorem size_bytes_append (a b : Bitmap) : (a ++ b).bytes.size = a.bytes.size + b.bytes.size := by
  rw [← Buffer.length_toList, toList_bytes_append, List.length_append, Buffer.length_toList,
    Buffer.length_toList]

/-- The bits of a map are the binary digits of the number that its bytes store. -/
theorem isSet_eq_testBit (m : Bitmap) (n : Nat) :
    m.isSet n = (Bytes.toNatLE m.bytes.toList).testBit n := by
  rw [isSet, Buffer.byte_eq, Bytes.testBit_toNatLE]

theorem isSet_past_end (h : 8 * m.bytes.size ≤ n) : m.isSet n = false := by
  have hlt := Bytes.toNatLE_lt_two_pow m.bytes.toList
  rw [Buffer.length_toList] at hlt
  rw [isSet_eq_testBit]
  exact Nat.testBit_lt_two_pow (Nat.lt_of_lt_of_le hlt (Nat.pow_le_pow_right (by decide) h))

/-- Of two maps in a row, the bits past the end of the first are those of the second. -/
theorem isSet_append (a b : Bitmap) (n : Nat) :
    (a ++ b).isSet n =
      if n < 8 * a.bytes.size then a.isSet n else b.isSet (n - 8 * a.bytes.size) := by
  rw [isSet_eq_testBit, isSet_eq_testBit, isSet_eq_testBit, toList_bytes_append, Bytes.toNatLE_append,
    Nat.testBit_two_pow_mul_add _ (Bytes.toNatLE_lt_two_pow _), Buffer.length_toList]

theorem isSet_append_front {a : Bitmap} (b : Bitmap) (h : n < 8 * a.bytes.size) :
    (a ++ b).isSet n = a.isSet n := by
  rw [isSet_append, if_pos h]

theorem isSet_append_back (a b : Bitmap) (n : Nat) :
    (a ++ b).isSet (8 * a.bytes.size + n) = b.isSet n := by
  rw [isSet_append, if_neg (Nat.not_lt.mpr (Nat.le_add_right _ _)), Nat.add_sub_cancel_left]

/-! ## The count -/

/-- The bits of a byte are counted as they are found. -/
theorem toNat_onesOf_byte (m : Bitmap) (index : Nat) :
    (onesOf (m.bytes.byte index)).toNat = Nat.count (fun place => m.isSet (8 * index + place)) 8 := by
  rw [toNat_onesOf, Nat.count]
  apply List.countP_congr
  intro place hplace
  rw [List.mem_range] at hplace
  have hindex : (8 * index + place) / 8 = index := by omega
  have hplaces : (8 * index + place) % 8 = place := by omega
  rw [isSet, hindex, hplaces, decide_eq_true_eq]

/-- Counting starts with the last byte and adds what it finds to what was counted before, so the number
counted before changes from step to step. -/
theorem onesBelow_eq (m : Bitmap) (count counted : Nat) :
    m.onesBelow count counted = counted + Nat.count (fun n => m.isSet n) (8 * count) := by
  induction count generalizing counted with
  | zero => rfl
  | succ count ih =>
    rw [onesBelow, ih, toNat_onesOf_byte, Nat.mul_succ, Nat.count_add, Nat.add_assoc,
      Nat.add_comm (Nat.count _ 8)]

theorem ones_eq_count (m : Bitmap) : m.ones = Nat.count (fun n => m.isSet n) (8 * m.bytes.size) := by
  rw [ones, onesBelow_eq, Nat.zero_add]

theorem ones_le (m : Bitmap) : m.ones ≤ 8 * m.bytes.size := by
  rw [ones_eq_count]
  exact Nat.count_le _

theorem ones_append (a b : Bitmap) : (a ++ b).ones = a.ones + b.ones := by
  have hfront : Nat.count (fun n => (a ++ b).isSet n) (8 * a.bytes.size) = a.ones := by
    rw [ones_eq_count]
    apply List.countP_congr
    intro n hn
    simp only [isSet_append_front b (List.mem_range.mp hn)]
  rw [ones_eq_count (a ++ b), size_bytes_append, Nat.mul_add, Nat.count_add, hfront, ones_eq_count b]
  simp only [isSet_append_back]

theorem ones_single (b : UInt8) : (⟨.ofList [b]⟩ : Bitmap).ones = (onesOf b).toNat := by
  rw [Buffer.ofList_eq_mk]
  exact Nat.zero_add _

theorem ones_cons (b : UInt8) (rest : Bytes) :
    (⟨.ofList (b :: rest)⟩ : Bitmap).ones = (onesOf b).toNat + (⟨.ofList rest⟩ : Bitmap).ones := by
  have hsplit : (⟨.ofList (b :: rest)⟩ : Bitmap) = ⟨.ofList [b]⟩ ++ ⟨.ofList rest⟩ := by
    apply congrArg Bitmap.mk
    apply Buffer.ext
    rw [Buffer.toList_append, Buffer.toList_ofList, Buffer.toList_ofList, Buffer.toList_ofList,
      List.singleton_append]
  rw [hsplit, ones_append, ones_single]

end Bitmap

/-! ## The machine -/

namespace Machine

open Work

/-- A byte in which one bit is set. -/
def bitOfByte (place : UInt64) : Work UInt8 :=
  if place < 8 then pure (1 <<< place.toUInt8) else stop .shift

def isSet (raw : Bytes) (bit : UInt64) : Work Bool :=
  match raw[(bit / 8).toNat]? with
  | none => pure false
  | some b => do return b &&& (← bitOfByte (bit % 8)) != 0

/-- How many bits of a map are set, added to those counted already. -/
def ones : (raw : Bytes) → (counted : Nat) → Work Nat
  | [], counted => pure counted
  | b :: rest, counted => do ones rest (← add counted (Bitmap.onesOf b).toNat)

theorem and_shiftLeft_ne_zero (b : UInt8) {place : UInt64} (h : place < 8) :
    (b &&& 1 <<< place.toUInt8 != 0) = b.toNat.testBit place.toNat := by
  have hplace : place.toNat < 8 := UInt64.lt_iff_toNat_lt.mp h
  have hpow : 2 ^ place.toNat < 2 ^ 8 := Nat.pow_lt_pow_right (by decide) hplace
  have hbyte : place.toUInt8.toNat % 8 = place.toNat := by
    rw [UInt64.toNat_toUInt8]
    omega
  have hmask : ((1 : UInt8) <<< place.toUInt8).toNat = 2 ^ place.toNat := by
    rw [UInt8.toNat_shiftLeft, hbyte, Nat.shiftLeft_eq, UInt8.toNat_one, Nat.one_mul,
      Nat.mod_eq_of_lt hpow]
  rw [Bool.eq_iff_iff, bne_iff_ne, ne_eq, ← UInt8.toNat_inj, UInt8.toNat_and, hmask, Nat.and_two_pow]
  cases b.toNat.testBit place.toNat <;> simp

/-- The machine looks up a bit as the library does.  A byte past the end is missing to the machine and
reads as zero in a buffer. -/
theorem isSet_eq (m : Bitmap) (bit : UInt64) :
    isSet m.bytes.toList bit = done (.clean (m.isSet bit.toNat)) := by
  have hindex : (bit / 8).toNat = bit.toNat / 8 := UInt64.toNat_div bit 8
  have hplace : (bit % 8).toNat = bit.toNat % 8 := UInt64.toNat_mod bit 8
  have hlt : bit % 8 < 8 := by
    rw [UInt64.lt_iff_toNat_lt, hplace]
    exact Nat.mod_lt _ (by decide)
  rw [isSet, hindex]
  by_cases hinside : bit.toNat / 8 < m.bytes.size
  · rw [Buffer.getElem?_toList hinside, Bitmap.isSet, ← hplace, ← and_shiftLeft_ne_zero _ hlt]
    simp only [bitOfByte, if_pos hlt, pure_eq_done, bind_eq_andThen, done_clean_andThen]
  · have hpast : 8 * m.bytes.size ≤ bit.toNat := by omega
    rw [List.getElem?_eq_none (by rw [Buffer.length_toList]; omega), Bitmap.isSet_past_end hpast]
    rfl

/-- A word that can number the bits can also count them. -/
theorem ones_eq (raw : Bytes) {counted : Nat} (h : counted + 8 * raw.length ≤ maxWord) :
    ones raw counted = done (.clean (counted + (⟨.ofList raw⟩ : Bitmap).ones)) := by
  induction raw generalizing counted with
  | nil => rfl
  | cons b rest ih =>
    have hbyte : (Bitmap.onesOf b).toNat ≤ 8 := by
      rw [← Bitmap.ones_single]
      exact Bitmap.ones_le _
    rw [List.length_cons] at h
    rw [ones, add_of_le (by omega), bind_eq_andThen, done_clean_andThen, ih (by omega), Bitmap.ones_cons,
      Nat.add_assoc]

end Machine

namespace Bitmap

/-- The bits of a map are the digits of the number that its bytes store, and as many are set as there are
places, eight for each byte, where one is found set.  None past these is set.  Of a map with another behind
it, the count is the sum of the counts, the first bits are those of the one, and the bits from its end on
those of the other.  A machine that shifts one bit over a byte finds the same bit at every word, and one
that counts in a word comes to the same count if a word can number the bits. -/
theorem ones_counts_isSet (a : Bitmap) :
    (∀ n, a.isSet n = (Bytes.toNatLE a.bytes.toList).testBit n) ∧
    a.ones = Nat.count (fun n => a.isSet n) (8 * a.bytes.size) ∧
    (∀ n, 8 * a.bytes.size ≤ n → a.isSet n = false) ∧
    (∀ b : Bitmap, (a ++ b).ones = a.ones + b.ones ∧
      (∀ n, n < 8 * a.bytes.size → (a ++ b).isSet n = a.isSet n) ∧
      ∀ n, (a ++ b).isSet (8 * a.bytes.size + n) = b.isSet n) ∧
    (∀ n : UInt64, Machine.isSet a.bytes.toList n = .done (.clean (a.isSet n.toNat))) ∧
    (8 * a.bytes.size ≤ maxWord → Machine.ones a.bytes.toList 0 = .done (.clean a.ones)) := by
  refine ⟨isSet_eq_testBit a, ones_eq_count a, fun n => isSet_past_end, fun b => ?_, Machine.isSet_eq a,
    fun hwords => ?_⟩
  · exact ⟨ones_append a b, fun n => isSet_append_front b, isSet_append_back a b⟩
  · rw [Machine.ones_eq _ (by rw [Buffer.length_toList]; omega), Nat.zero_add, Buffer.ofList_toList]

theorem ones_counts_isSet_twoMaps :
    let a : Bitmap := ⟨⟨⟨#[0b00000101, 0xFF]⟩⟩⟩
    let b : Bitmap := ⟨⟨⟨#[0x80]⟩⟩⟩
    (8 * a.bytes.size ≤ 100 ∧ a.isSet 100 = false) ∧
    (2 < 8 * a.bytes.size ∧ (a ++ b).isSet 2 = true) ∧
    (a ++ b).isSet 23 = true ∧
    Machine.isSet a.bytes.toList 0xFFFFFFFFFFFFFFFF = .done (.clean false) ∧
    (8 * a.bytes.size ≤ maxWord ∧ Machine.ones a.bytes.toList 0 = .done (.clean 10)) := by
  intro a b
  obtain ⟨-, -, hpast, happend, hmachine, hcount⟩ := ones_counts_isSet a
  obtain ⟨-, hfront, hback⟩ := happend b
  have hsecond : a.isSet 2 = true := by decide
  have hlast : b.isSet 7 = true := by decide
  have hnone : a.isSet (0xFFFFFFFFFFFFFFFF : UInt64).toNat = false := hpast _ (by decide)
  have hones : a.ones = 10 := by decide
  refine ⟨⟨by decide, hpast 100 (by decide)⟩, ⟨by decide, ?_⟩, ?_, ?_, by decide, ?_⟩
  · rw [hfront 2 (by decide), hsecond]
  · rw [show 23 = 8 * a.bytes.size + 7 by decide, hback, hlast]
  · rw [hmachine, hnone]
  · rw [hcount (by decide), hones]

end Bitmap

end Ntfs
