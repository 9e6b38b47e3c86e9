import Ntfs.Buffer

/-!
# Bitmaps

Which records, or index blocks, are in use: bit `n` of the map stands in byte `n / 8`, counted
from its least significant bit.
-/

namespace Ntfs

/-- The value of a bitmap attribute. -/
structure Bitmap where
  bytes : Buffer
  deriving DecidableEq, Repr

namespace Bitmap

/-- How many bits of a byte are set: neighbouring bits are added up, then the sums of pairs, then
those of fours. -/
def onesOf (b : UInt8) : UInt8 :=
  let pairs := b - ((b / 2) &&& 0x55)
  let fours := (pairs &&& 0x33) + ((pairs / 4) &&& 0x33)
  (fours + fours / 16) &&& 0x0F

/-- Every bit of a byte counts once. -/
theorem toNat_onesOf (b : UInt8) :
    (onesOf b).toNat = (List.range 8).countP fun place => b.toNat.testBit place := by
  have every : ∀ n : Fin 256, (onesOf (UInt8.ofNat n)).toNat =
      (List.range 8).countP fun place => (UInt8.ofNat n).toNat.testBit place := by
    decide +kernel
  simpa using every ⟨b.toNat, b.toNat_lt⟩

/-- How many bits are set in the first `count` bytes, added to those counted already. -/
def onesBelow (m : Bitmap) : (count counted : Nat) → Nat
  | 0, counted => counted
  | count + 1, counted => onesBelow m count (counted + (onesOf (m.bytes.byte count)).toNat)

def ones (m : Bitmap) : Nat := m.onesBelow m.bytes.size 0

/-- Whether a bit is set; no bit past the end is. -/
def isSet (m : Bitmap) (bit : Nat) : Bool := (m.bytes.byte (bit / 8)).toNat.testBit (bit % 8)

end Bitmap

end Ntfs
