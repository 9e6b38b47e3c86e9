import Ntfs.Bytes

/-!
# File references

A file is named by its record number and the sequence number the record had at that time, packed
into one 64-bit word: the number in the low 48 bits, the sequence in the high 16.
-/

namespace Ntfs

/-- A reference to a record. -/
structure FileReference where
  record : UInt64
  sequence : UInt16
  deriving DecidableEq, Repr

namespace FileReference

/-- How many record numbers fit into a reference. -/
def recordBound : Nat := 0x1000000000000

def ofWord (word : UInt64) : FileReference where
  record := UInt64.ofNat (word.toNat % recordBound)
  sequence := UInt16.ofNat (word.toNat / recordBound)

/-- Pack a reference; only the low 48 bits of the number fit. -/
def toWord (r : FileReference) : UInt64 :=
  UInt64.ofNat (r.record.toNat % recordBound + recordBound * r.sequence.toNat)

/-- A reference with a 48-bit number is stored without loss. -/
theorem ofWord_toWord {r : FileReference} (h : r.record.toNat < recordBound) :
    ofWord r.toWord = r := by
  obtain ⟨record, sequence⟩ := r
  have hs := sequence.toNat_lt
  have hword : (toWord ⟨record, sequence⟩).toNat
      = record.toNat + recordBound * sequence.toNat := by
    simp only [toWord, Nat.mod_eq_of_lt h, UInt64.toNat_ofNat']
    simp only [recordBound] at h ⊢
    omega
  have hrecord : (record.toNat + recordBound * sequence.toNat) % recordBound = record.toNat := by
    rw [Nat.add_mul_mod_self_left, Nat.mod_eq_of_lt h]
  have hsequence : (record.toNat + recordBound * sequence.toNat) / recordBound
      = sequence.toNat := by
    rw [Nat.add_mul_div_left _ _ (by decide), Nat.div_eq_of_lt h, Nat.zero_add]
  simp only [ofWord, hword, hrecord, hsequence, UInt64.ofNat_toNat, UInt16.ofNat_toNat]

end FileReference

end Ntfs
