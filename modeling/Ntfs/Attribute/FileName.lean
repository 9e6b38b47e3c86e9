import Ntfs.FileReference
import Ntfs.Note
import Ntfs.Text.Lowercase
import Ntfs.Text.Utf16
import Ntfs.Time.Stamps

/-!
# File names

A file name attribute binds a file to a directory: a reference to the directory, times and sizes
kept for listings, and the name in UTF-16 after 66 fixed bytes.  A file may have several, in
different namespaces; the one shown is the first of the best namespace.
-/

namespace Ntfs

/-- The rules a name was made by. -/
inductive Namespace where
  | posix
  | win32
  | dos
  | win32AndDos
  | other (byte : UInt8)
  deriving DecidableEq, Repr

namespace Namespace

/-- The namespace of its stored byte. -/
def ofByte (b : UInt8) : Namespace :=
  if b = 0 then .posix
  else if b = 1 then .win32
  else if b = 2 then .dos
  else if b = 3 then .win32AndDos
  else .other b

/-- Rank among the names of a file; the lowest is shown. -/
def rank : Namespace → Nat
  | posix => 0
  | win32 => 1
  | win32AndDos => 2
  | dos => 3
  | other _ => 4

def name : Namespace → String
  | posix => "POSIX"
  | win32 => "Win32"
  | dos => "DOS"
  | win32AndDos => "Win32 & Dos"
  | other b => s!"Unknown({b.toNat})"

end Namespace

/-- The value of a file name attribute. -/
structure FileName where
  parent : FileReference
  stamps : Stamps
  allocatedSize : UInt64
  realSize : UInt64
  flags : UInt32
  reparseTag : UInt32
  /-- The length of the name in code units, as stored. -/
  nameLength : UInt8
  space : Namespace
  name : String
  deriving DecidableEq, Repr

namespace FileName

/-- The bytes before the name. -/
def fixedSize : Nat := 66

/-- The bytes that a value may need: the longest name has 255 code units. -/
def maxSize : Nat := fixedSize + 2 * 255

/-- Decode a value.  A name that runs past the end is cut to the units that are there. -/
def decode (raw : Bytes) : Noted (Option FileName) :=
  if Bytes.shorterThan raw fixedSize then .note none (.fileNameShort raw.length)
  else
    let units := (Bytes.u8 raw 0x40).toNat
    { value := some {
        parent := FileReference.ofWord (Bytes.u64 raw 0x00)
        stamps := Stamps.ofBytes raw 0x08
        allocatedSize := Bytes.u64 raw 0x28
        realSize := Bytes.u64 raw 0x30
        flags := Bytes.u32 raw 0x38
        reparseTag := Bytes.u32 raw 0x3C
        nameLength := Bytes.u8 raw 0x40
        space := Namespace.ofByte (Bytes.u8 raw 0x41)
        name := Utf16.decode ((raw.drop fixedSize).take (2 * units)) }
      notes := if Bytes.shorterThan raw (fixedSize + 2 * units)
        then [.fileNameCut units (raw.length - fixedSize)] else [] }

/-- What follows the longest name does not count. -/
theorem decode_take (raw : Bytes) {n : Nat} (h : maxSize ≤ n) :
    decode (raw.take n) = decode raw := by
  by_cases hlen : raw.length ≤ n
  · rw [List.take_of_length_le hlen]
  · have hmax : 576 ≤ n := h
    have hunits : (Bytes.u8 raw 0x40).toNat < 256 := (Bytes.u8 raw 0x40).toNat_lt
    have hroom : fixedSize + 2 * (Bytes.u8 raw 0x40).toNat ≤ 576 := by
      rw [fixedSize]
      omega
    have hcut : 576 ≤ (raw.take n).length := by
      rw [List.length_take]
      omega
    have hwhole : 576 ≤ raw.length := by omega
    have hlong (size : Nat) (hsize : size ≤ 576) (b : Bytes) (hb : 576 ≤ b.length) :
        ¬ Bytes.shorterThan b size = true := by
      rw [Bytes.shorterThan_iff]
      omega
    have hunit : Bytes.u8 (raw.take n) 0x40 = Bytes.u8 raw 0x40 := Bytes.u8_take raw (by omega)
    have hspace : Bytes.u8 (raw.take n) 0x41 = Bytes.u8 raw 0x41 := Bytes.u8_take raw (by omega)
    have hfield (offset width : Nat) (hend : offset + width ≤ 66) :
        Bytes.word? (raw.take n) offset width = Bytes.word? raw offset width :=
      Bytes.word?_take raw (by omega)
    have hname : ((raw.take n).drop fixedSize).take (2 * (Bytes.u8 raw 0x40).toNat) =
        (raw.drop fixedSize).take (2 * (Bytes.u8 raw 0x40).toNat) := by
      rw [List.drop_take, List.take_take, Nat.min_eq_left (by omega)]
    rw [decode, decode, if_neg (hlong fixedSize (by decide) _ hcut),
      if_neg (hlong fixedSize (by decide) _ hwhole)]
    simp only [Stamps.ofBytes, Bytes.u64, Bytes.u32, Bytes.u64?, Bytes.u32?, hunit, hspace, hname]
    simp [hfield, hlong _ hroom _ hcut, hlong _ hroom _ hwhole]

def splitLastDot? (cs : List Char) : Option (List Char × List Char) :=
  let back := cs.reverse
  let extension := back.takeWhile (· != '.')
  match back.drop extension.length with
  | _ :: stem => some (stem.reverse, extension.reverse)
  | [] => none

/-- The extension in lower case: what stands after the last dot, if something stands on both
sides of it. -/
def extension? (f : FileName) : Option String :=
  match splitLastDot? f.name.toList with
  | some (_ :: _, e :: ext) => some (Lowercase.lower (String.ofList (e :: ext)))
  | _ => none

/-- Of two names keep the earlier one unless the later one ranks strictly better. -/
def better (a b : FileName) : FileName := if b.space.rank < a.space.rank then b else a

/-- The name shown for a file: the first of those with the best rank. -/
def preferred? : List FileName → Option FileName
  | [] => none
  | f :: rest => some (rest.foldl better f)

end FileName

end Ntfs
