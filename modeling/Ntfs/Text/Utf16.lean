import Ntfs.Bytes

/-!
# UTF-16 text on disk

Names are stored as little-endian UTF-16 code units with no promise of well-formedness.
`decode` reads them without ever failing: a surrogate without its partner becomes U+FFFD, and an
odd byte at the end belongs to no unit and is dropped.
-/

namespace Ntfs.Utf16

def units : Bytes → List UInt16
  | low :: high :: rest => UInt16.ofNat (Bytes.toNatLE [low, high]) :: units rest
  | _ => []

def store (us : List UInt16) : Bytes := us.flatMap fun u => Bytes.ofNatLE 2 u.toNat

@[simp]
theorem length_store (us : List UInt16) : (store us).length = 2 * us.length := by
  induction us with
  | nil => rfl
  | cons u us ih =>
    simp only [store, List.flatMap_cons, List.length_append, Bytes.length_ofNatLE] at ih ⊢
    simp only [List.length_cons, ih]
    omega

/-- Storing loses no unit. -/
@[simp]
theorem units_store (us : List UInt16) : units (store us) = us := by
  induction us with
  | nil => rfl
  | cons u us ih =>
    have hu : u.toNat < Bytes.capacity 2 := u.toNat_lt
    have key : Bytes.ofNatLE 2 u.toNat
        = [UInt8.ofNat u.toNat, UInt8.ofNat (u.toNat / 256)] := rfl
    have hval := Bytes.toNatLE_ofNatLE hu
    rw [key] at hval
    simp only [store, List.flatMap_cons, key, List.cons_append, List.nil_append, units] at ih ⊢
    rw [hval, ih]
    simp

/-- First half of a surrogate pair. -/
def isHigh (u : UInt16) : Bool := 0xD800 ≤ u && u ≤ 0xDBFF

def isLow (u : UInt16) : Bool := 0xDC00 ≤ u && u ≤ 0xDFFF

/-- What stands for a unit that encodes no character. -/
def replacement : Char := '\uFFFD'

/-- The character of a unit that stands alone. -/
def single (u : UInt16) : Char :=
  if isHigh u || isLow u then replacement else Char.ofNat u.toNat

def pair (high low : UInt16) : Char :=
  Char.ofNat (0x10000 + (high.toNat - 0xD800) * 0x400 + (low.toNat - 0xDC00))

def chars : List UInt16 → List Char
  | [] => []
  | [u] => [single u]
  | u :: v :: rest =>
    if isHigh u && isLow v then pair u v :: chars rest else single u :: chars (v :: rest)

def decode (raw : Bytes) : String := String.ofList (chars (units raw))

end Ntfs.Utf16
