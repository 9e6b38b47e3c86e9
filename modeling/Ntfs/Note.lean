import Ntfs.Attribute.Kind
import Ntfs.Fixup
import Ntfs.Text.Hex

/-!
# Notes

A decoder never fails loudly: it returns what it could read together with notes on what was wrong.
A note is a cause; its wording is `Note.message`.
-/

namespace Ntfs

/-- A fault met while decoding. -/
inductive Note where
  | attributeCut (available : Nat)
  | attributeNameOutside (kind : AttributeKind)
  | residentHeaderCut (kind : AttributeKind)
  | valueCut (kind : AttributeKind) (declared available : Nat)
  | nonResidentHeaderCut (kind : AttributeKind)
  | runListStopped (kind : AttributeKind) (reason : String)
  | runListOutside (kind : AttributeKind) (offset : Nat)
  | actualAboveAllocated (kind : AttributeKind) (actual allocated : Nat)
  | unknownKind (code : UInt32)
  | standardInformationShort (available : Nat)
  | listEntryCut (offset available : Nat)
  | listEntryLength (offset length : Nat)
  | listEntryName (offset : Nat)
  | fileNameShort (available : Nat)
  | fileNameCut (units available : Nat)
  | objectIdShort (available : Nat)
  | volumeInformationShort (available : Nat)
  | reparsePointShort (available : Nat)
  | reparseTargetOutside
  | indexNodeCut
  | indexNodeOverrun (claimed available : Nat)
  | indexEntryLength (offset length : Nat)
  | indexRootShort (available : Nat)
  | indexBlock (index : Nat) (fault : Fixup.Fault)
  | streamEnds (offset : Nat)
  | attributeLength (offset length : Nat)
  | attributeOverrun (offset length available : Nat)
  deriving DecidableEq, Repr

def Note.message : Note → String
  | attributeCut available => s!"attribute header truncated to {available} bytes"
  | attributeNameOutside kind => kind.name ++ " attribute name outside the attribute"
  | residentHeaderCut kind => "resident " ++ kind.name ++ " header truncated"
  | valueCut kind declared available =>
    kind.name ++ s!" content of {declared} bytes truncated to {available}"
  | nonResidentHeaderCut kind => "non-resident " ++ kind.name ++ " header truncated"
  | runListStopped kind reason => kind.name ++ " run-list: " ++ reason
  | runListOutside kind offset => kind.name ++ s!" run-list offset {offset} outside the attribute"
  | actualAboveAllocated kind actual allocated =>
    kind.name ++ s!" actual length {actual} exceeds allocated length {allocated}"
  | unknownKind code => "unknown attribute type 0x" ++ Hex.upper 1 code.toNat ++ " skipped"
  | standardInformationShort available =>
    s!"$STANDARD_INFORMATION holds {available} bytes, need 48"
  | listEntryCut offset available =>
    s!"attribute list entry at {offset} truncated to {available} bytes"
  | listEntryLength offset length => s!"attribute list entry at {offset} declares length {length}"
  | listEntryName offset => s!"attribute list entry at {offset} has a truncated name"
  | fileNameShort available => s!"$FILE_NAME holds {available} bytes, need 66"
  | fileNameCut units available =>
    s!"file name of {units} units exceeds the {available} available bytes"
  | objectIdShort available => s!"$OBJECT_ID holds only {available} bytes"
  | volumeInformationShort available => s!"$VOLUME_INFORMATION holds only {available} bytes"
  | reparsePointShort available => s!"$REPARSE_POINT holds only {available} bytes"
  | reparseTargetOutside => "reparse target outside the attribute"
  | indexNodeCut => "index node header truncated"
  | indexNodeOverrun claimed available =>
    s!"index node claims {claimed} used bytes, only {available} available"
  | indexEntryLength offset length => s!"index entry at {offset} declares length {length}"
  | indexRootShort available => s!"$INDEX_ROOT holds only {available} bytes"
  | indexBlock index fault => s!"INDX block {index}: " ++ fault.message
  | streamEnds offset => s!"attribute stream ends inside the type field at {offset}"
  | attributeLength offset length =>
    s!"attribute at {offset} declares length {length}, stopping"
  | attributeOverrun offset length available =>
    s!"attribute at {offset} declares length {length}, truncated to {available}"

/-- A decoded value with the notes taken while decoding it, in order. -/
structure Noted (α : Type) where
  value : α
  notes : List Note
  deriving DecidableEq, Repr

namespace Noted

def clean {α : Type} (value : α) : Noted α := ⟨value, []⟩

def note {α : Type} (value : α) (n : Note) : Noted α := ⟨value, [n]⟩

def map {α β : Type} (f : α → β) (x : Noted α) : Noted β := ⟨f x.value, x.notes⟩

/-- An item in front of a list; its notes come first. -/
def cons {α : Type} (x : Noted α) (xs : Noted (List α)) : Noted (List α) :=
  ⟨x.value :: xs.value, x.notes ++ xs.notes⟩

end Noted

end Ntfs
