import Ntfs.Buffer
import Ntfs.FileReference
import Ntfs.Note
import Ntfs.Text.Utf16

/-!
# Attribute lists

A file whose attributes do not fit into one record keeps a list of them: each entry names an
attribute and the record that holds it, or a part of it.  Entries follow one another by their
declared lengths; zeros after the last one are padding.
-/

namespace Ntfs

/-- An entry of an attribute list. -/
structure ListEntry where
  kind : AttributeKind
  length : UInt16
  nameLength : UInt8
  nameOffset : UInt8
  startVcn : UInt64
  /-- The record that holds the attribute. -/
  holder : FileReference
  attributeId : UInt16
  name : Option String
  deriving DecidableEq, Repr

namespace ListEntry

/-- The shortest length an entry may declare. -/
def minSize : Nat := 24

def fixedSize : Nat := 26

def decodeName (list : Buffer) (offset : Nat) (fixed : Bytes) : Noted (Option String) :=
  let length := 2 * (Bytes.u8 fixed 6).toNat
  if length = 0 then .clean none
  else
    let stored := list.window (offset + (Bytes.u8 fixed 7).toNat) length
    if stored.length = length then .clean (some (Utf16.decode stored))
    else .note none (.listEntryName offset)

def decodeAt (list : Buffer) (offset : Nat) (fixed : Bytes) : Noted ListEntry :=
  (decodeName list offset fixed).map fun name => {
    kind := AttributeKind.ofCode (Bytes.u32 fixed 0)
    length := Bytes.u16 fixed 4
    nameLength := Bytes.u8 fixed 6
    nameOffset := Bytes.u8 fixed 7
    startVcn := Bytes.u64 fixed 8
    holder := FileReference.ofWord (Bytes.u64 fixed 16)
    attributeId := Bytes.u16 fixed 24
    name }

/-- The entries from `offset` on. -/
def decodeFrom (list : Buffer) (offset : Nat) : Noted (List ListEntry) :=
  let fixed := list.window offset fixedSize
  if list.size ≤ offset then .clean []
  else if fixed.length < minSize then .note [] (.listEntryCut offset fixed.length)
  else
    let length := (Bytes.u16 fixed 4).toNat
    if Bytes.u32 fixed 0 = 0 ∧ length = 0 then .clean []
    else if length < minSize then .note [] (.listEntryLength offset length)
    else (decodeAt list offset fixed).cons (decodeFrom list (offset + length))
termination_by list.size - offset
decreasing_by
  have hlength : ¬ ((list.window offset fixedSize).u16 4).toNat < 24 := by assumption
  omega

def decodeAll (list : Buffer) : Noted (List ListEntry) := decodeFrom list 0

end ListEntry

end Ntfs
