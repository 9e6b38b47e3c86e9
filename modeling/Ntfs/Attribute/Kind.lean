/-!
# Kinds of attributes

A file is a set of attributes, and a 32-bit code says what each of them holds.  Every code has a
kind, and `code_ofCode` says that a kind keeps its code.
-/

namespace Ntfs

/-- What an attribute holds. -/
inductive AttributeKind where
  | standardInformation
  | attributeList
  | fileName
  | objectId
  | securityDescriptor
  | volumeName
  | volumeInformation
  | data
  | indexRoot
  | indexAllocation
  | bitmap
  | reparsePoint
  | extendedInformation
  | extended
  | propertySet
  | loggedUtilityStream
  /-- The mark after the last attribute of a record. -/
  | endMark
  /-- A code without a known meaning. -/
  | other (code : UInt32)
  deriving DecidableEq, Repr

namespace AttributeKind

/-- The code of the mark after the last attribute of a record. -/
def endCode : UInt32 := 0xFFFFFFFF

def code : AttributeKind → UInt32
  | standardInformation => 0x10
  | attributeList => 0x20
  | fileName => 0x30
  | objectId => 0x40
  | securityDescriptor => 0x50
  | volumeName => 0x60
  | volumeInformation => 0x70
  | data => 0x80
  | indexRoot => 0x90
  | indexAllocation => 0xA0
  | bitmap => 0xB0
  | reparsePoint => 0xC0
  | extendedInformation => 0xD0
  | extended => 0xE0
  | propertySet => 0xF0
  | loggedUtilityStream => 0x100
  | endMark => endCode
  | other c => c

/-- The kinds with a known meaning. -/
def known : List AttributeKind := [
  standardInformation, attributeList, fileName, objectId, securityDescriptor, volumeName,
  volumeInformation, data, indexRoot, indexAllocation, bitmap, reparsePoint, extendedInformation,
  extended, propertySet, loggedUtilityStream, endMark]

def ofCode (c : UInt32) : AttributeKind := (known.find? (·.code == c)).getD (other c)

/-- No two codes share a kind. -/
@[simp]
theorem code_ofCode (c : UInt32) : (ofCode c).code = c := by
  unfold ofCode
  cases h : known.find? (·.code == c) with
  | none => rfl
  | some kind => simpa using List.find?_some h

def name : AttributeKind → String
  | standardInformation => "Standard Information"
  | attributeList => "Attribute List"
  | fileName => "FileName"
  | objectId => "Object ID"
  | securityDescriptor => "Security Descriptor"
  | volumeName => "Volume Name"
  | volumeInformation => "Volume Information"
  | data => "Data"
  | indexRoot => "Index Root"
  | indexAllocation => "Index Allocation"
  | bitmap => "BitMap"
  | reparsePoint => "Reparse Point"
  | extendedInformation => "EA Information"
  | extended => "EA"
  | propertySet => "Property Set"
  | loggedUtilityStream => "Logged Utility Stream"
  | endMark => "Last"
  | other _ => "unknown"

end AttributeKind

end Ntfs
