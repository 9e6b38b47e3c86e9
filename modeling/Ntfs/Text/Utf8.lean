import Ntfs.Bytes

/-!
# UTF-8 text on disk

Identifiers made of bytes are shown as UTF-8.  Reading never fails: each longest run of bytes that
starts a character and cannot be completed becomes one U+FFFD.
-/

namespace Ntfs.Utf8

def replacement : Char := '\uFFFD'

/-- For a first byte: how many bytes follow it, and the range the next one must lie in. -/
def lead (b : UInt8) : Option (Nat × UInt8 × UInt8) :=
  if 0xC2 ≤ b && b ≤ 0xDF then some (1, 0x80, 0xBF)
  else if b == 0xE0 then some (2, 0xA0, 0xBF)
  else if b == 0xED then some (2, 0x80, 0x9F)
  else if 0xE1 ≤ b && b ≤ 0xEF then some (2, 0x80, 0xBF)
  else if b == 0xF0 then some (3, 0x90, 0xBF)
  else if 0xF1 ≤ b && b ≤ 0xF3 then some (3, 0x80, 0xBF)
  else if b == 0xF4 then some (3, 0x80, 0x8F)
  else none

/-- Read the `owed` remaining bytes of a character, the next of which must lie in `low..high`.
Returns the character, or the replacement if one is missing, with the bytes not used. -/
def continuation : (owed : Nat) → (low high : UInt8) → (code : Nat) → Bytes → Char × Bytes
  | 0, _, _, code, rest => (Char.ofNat code, rest)
  | _ + 1, _, _, _, [] => (replacement, [])
  | owed + 1, low, high, code, b :: rest =>
    if low ≤ b && b ≤ high then continuation owed 0x80 0xBF (code * 64 + b.toNat % 64) rest
    else (replacement, b :: rest)

def next (b : UInt8) (rest : Bytes) : Char × Bytes :=
  if b < 0x80 then (Char.ofNat b.toNat, rest)
  else match lead b with
    | none => (replacement, rest)
    | some (owed, low, high) => continuation owed low high (b.toNat % 1 <<< (6 - owed)) rest

theorem length_continuation_le (owed : Nat) (low high : UInt8) (code : Nat) (rest : Bytes) :
    (continuation owed low high code rest).2.length ≤ rest.length := by
  fun_induction continuation owed low high code rest with
  | case1 => simp
  | case2 => simp
  | case3 _ _ _ _ _ _ _ ih => simp only [List.length_cons]; omega
  | case4 => simp

theorem length_next_le (b : UInt8) (rest : Bytes) : (next b rest).2.length ≤ rest.length := by
  unfold next
  split
  · simp
  · split
    · simp
    · exact length_continuation_le ..

def chars : Bytes → List Char
  | [] => []
  | b :: rest => (next b rest).1 :: chars (next b rest).2
termination_by raw => raw.length
decreasing_by
  have := length_next_le b rest
  simp only [List.length_cons]
  omega

def decode (raw : Bytes) : String := String.ofList (chars raw)

end Ntfs.Utf8
