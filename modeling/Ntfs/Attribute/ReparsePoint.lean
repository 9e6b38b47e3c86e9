import Ntfs.Note
import Ntfs.Text.Utf16

/-!
# Reparse points

A file that stands for something else: a tag says what, and for mount points and symbolic links the
value holds two names of the target, placed by offsets into a buffer behind the header.
-/

namespace Ntfs

/-- The value of a reparse point attribute. -/
structure ReparsePoint where
  tag : UInt32
  dataLength : UInt16
  /-- The target as the system follows it. -/
  substituteName : Option String
  /-- The target as it is shown. -/
  printName : Option String
  deriving DecidableEq, Repr

namespace ReparsePoint

def mountPointTag : UInt32 := 0xA0000003
def symbolicLinkTag : UInt32 := 0xA000000C

/-- Where the buffer of names starts, for the tags that have one. -/
def nameBuffer? (tag : UInt32) : Option Nat :=
  if tag = mountPointTag then some 16
  else if tag = symbolicLinkTag then some 20
  else none

/-- The name whose offset and length stand at two positions of the header. -/
def nameAt? (raw : Bytes) (buffer offsetField lengthField : Nat) : Option String := do
  let offset ← Bytes.u16? raw offsetField
  let length ← Bytes.u16? raw lengthField
  let stored ← Bytes.slice? raw (buffer + offset.toNat) length.toNat
  return Utf16.decode stored

def decode (raw : Bytes) : Noted (Option ReparsePoint) :=
  match Bytes.u32? raw 0, Bytes.u16? raw 4 with
  | some tag, some dataLength =>
    match nameBuffer? tag with
    | none => .clean (some ⟨tag, dataLength, none, none⟩)
    | some buffer =>
      let substitute := nameAt? raw buffer 8 10
      { value := some ⟨tag, dataLength, substitute, nameAt? raw buffer 12 14⟩
        notes := if substitute.isNone then [.reparseTargetOutside] else [] }
  | _, _ => .note none (.reparsePointShort raw.length)

def tagName (r : ReparsePoint) : String :=
  if r.tag = mountPointTag then "Mount point"
  else if r.tag = symbolicLinkTag then "Symbolic link"
  else if r.tag = 0x80000017 then "WOF"
  else if r.tag = 0x80000013 then "Dedup"
  else if r.tag = 0x8000001B then "AppExecLink"
  else "Other"

end ReparsePoint

end Ntfs
