/-!
# Byte strings

Every structure of the file system is read from a byte string.  Fields are little-endian numbers
at fixed offsets; a field that does not lie wholly inside the string is absent.  `toNatLE` and
`ofNatLE` are the two directions of the number layout: no number that fits its width is lost
(`toNatLE_ofNatLE`), and no byte (`ofNatLE_toNatLE`).
-/

namespace Ntfs

/-- A string of bytes, in storage order. -/
abbrev Bytes := List UInt8

/-- The largest 64-bit number.  Offsets and lengths past it are refused or capped. -/
def maxWord : Nat := 0xFFFFFFFFFFFFFFFF

namespace Bytes

/-- How many numbers can be stored in `width` bytes. -/
def capacity : (width : Nat) → Nat
  | 0 => 1
  | width + 1 => 256 * capacity width

/-- The number whose base-256 digits are the given bytes, least significant first. -/
def toNatLE : Bytes → Nat
  | [] => 0
  | b :: rest => b.toNat + 256 * toNatLE rest

/-- The `width` least significant base-256 digits of a number, least significant first. -/
def ofNatLE : (width : Nat) → (n : Nat) → Bytes
  | 0, _ => []
  | width + 1, n => UInt8.ofNat n :: ofNatLE width (n / 256)

@[simp]
theorem length_ofNatLE (width n : Nat) : (ofNatLE width n).length = width := by
  induction width generalizing n with
  | zero => rfl
  | succ width ih => simp [ofNatLE, ih]

theorem toNatLE_lt (b : Bytes) : toNatLE b < capacity b.length := by
  induction b with
  | nil => simp [toNatLE, capacity]
  | cons x rest ih =>
    have hx : x.toNat < 256 := x.toNat_lt
    simp only [toNatLE, List.length_cons, capacity]
    omega

/-- A number that fits a field is read back from it. -/
theorem toNatLE_ofNatLE {width n : Nat} (h : n < capacity width) :
    toNatLE (ofNatLE width n) = n := by
  induction width generalizing n with
  | zero => simp [capacity] at h; simp [ofNatLE, toNatLE, h]
  | succ width ih =>
    have hdiv : n / 256 < capacity width := by
      rw [capacity] at h
      omega
    simp only [ofNatLE, toNatLE, ih hdiv, UInt8.toNat_ofNat']
    omega

/-- A field is made up again from the number that it stores. -/
theorem ofNatLE_toNatLE (field : Bytes) : ofNatLE field.length (toNatLE field) = field := by
  induction field with
  | nil => rfl
  | cons b rest ih =>
    have hb : b.toNat < 256 := b.toNat_lt
    have hlow : UInt8.ofNat (b.toNat + 256 * toNatLE rest) = b := by
      apply UInt8.toNat_inj.mp
      rw [UInt8.toNat_ofNat']
      omega
    have hhigh : (b.toNat + 256 * toNatLE rest) / 256 = toNatLE rest := by omega
    rw [toNatLE, List.length_cons, ofNatLE, hlow, hhigh, ih]

/-- Whether there are fewer than `n` bytes.  Looks at no more than `n` of them. -/
def shorterThan : (b : Bytes) → (n : Nat) → Bool
  | _, 0 => false
  | [], _ + 1 => true
  | _ :: rest, n + 1 => shorterThan rest n

@[simp]
theorem shorterThan_iff {b : Bytes} {n : Nat} : shorterThan b n = true ↔ b.length < n := by
  induction n generalizing b with
  | zero => simp [shorterThan]
  | succ n ih => cases b <;> simp [shorterThan, ih]

/-- The `length` bytes from `offset` on, if all of them exist. -/
def slice? (b : Bytes) (offset length : Nat) : Option Bytes :=
  if shorterThan b (offset + length) then none else some ((b.drop offset).take length)

/-- The byte at `offset`; bytes past the end read as zero. -/
def u8 (b : Bytes) (offset : Nat) : UInt8 := b.getD offset 0

/-- The little-endian number stored in the `width` bytes from `offset` on, if all of them exist. -/
def word? (b : Bytes) (offset width : Nat) : Option Nat :=
  let field := (b.drop offset).take width
  if field.length = width then some (toNatLE field) else none

def u16? (b : Bytes) (offset : Nat) : Option UInt16 := (word? b offset 2).map UInt16.ofNat

def u32? (b : Bytes) (offset : Nat) : Option UInt32 := (word? b offset 4).map UInt32.ofNat

def u64? (b : Bytes) (offset : Nat) : Option UInt64 := (word? b offset 8).map UInt64.ofNat

/-- The 16-bit field at `offset`; an incomplete field reads as zero. -/
def u16 (b : Bytes) (offset : Nat) : UInt16 := (u16? b offset).getD 0

def u32 (b : Bytes) (offset : Nat) : UInt32 := (u32? b offset).getD 0

def u64 (b : Bytes) (offset : Nat) : UInt64 := (u64? b offset).getD 0

/-- A field is absent exactly when it does not fit. -/
theorem word?_eq_none_iff {b : Bytes} {offset width : Nat} (hw : 0 < width) :
    word? b offset width = none ↔ b.length < offset + width := by
  simp only [word?, List.length_take, List.length_drop]
  split <;> simp <;> omega

/-- A field depends only on the bytes it is stored in. -/
theorem word?_congr {a b : Bytes} {offset width : Nat}
    (h : (a.drop offset).take width = (b.drop offset).take width) :
    word? a offset width = word? b offset width := by
  simp only [word?, h]

/-- A field in front of a cut is not changed by it. -/
theorem word?_take (b : Bytes) {offset width n : Nat} (h : offset + width ≤ n) :
    word? (b.take n) offset width = word? b offset width := by
  apply word?_congr
  rw [List.drop_take, List.take_take, Nat.min_eq_left (by omega)]

theorem u8_take (b : Bytes) {offset n : Nat} (h : offset < n) :
    u8 (b.take n) offset = u8 b offset := by
  simp only [u8, List.getD_eq_getElem?_getD, List.getElem?_take_of_lt h]

end Bytes

end Ntfs
