import Ntfs.Attribute.Basic
import Ntfs.Warning

/-!
# File records

A file record is 1024 bytes: a header and the attributes of a file, or of a part of one.  Only
records with the signature `FILE` carry data.  Parent, link and derived size are not in the record
itself; they come from the table it belongs to.
-/

namespace Ntfs

/-- The fixed fields at the start of a record. -/
structure RecordHeader where
  /-- The four signature bytes as one stored word. -/
  signature : UInt32
  arrayOffset : UInt16
  arrayCount : UInt16
  logSequence : UInt64
  sequence : UInt16
  hardLinks : UInt16
  attributesOffset : UInt16
  flags : UInt16
  bytesInUse : UInt32
  bytesAllocated : UInt32
  /-- The record this one extends; number zero if it stands for itself. -/
  base : FileReference
  nextAttributeId : UInt16
  number : UInt32
  deriving DecidableEq, Repr

namespace RecordHeader

/-- The signature `FILE` as a stored word. -/
def fileSignature : UInt32 := 0x454C4946

def inUseFlag : UInt16 := 0x0001
def directoryFlag : UInt16 := 0x0002

def flagNames : List (UInt32 × String) :=
  [(0x0001, "Allocated"), (0x0002, "Directory"), (0x0004, "Extension"), (0x0008, "View Index")]

end RecordHeader

/-- Whether a record is in use, and what it is for. -/
inductive RecordStatus where
  | file
  | directory
  | deletedFile
  | deletedDirectory
  deriving DecidableEq, Repr

def RecordStatus.name : RecordStatus → String
  | file => "file"
  | directory => "directory"
  | deletedFile => "deleted file"
  | deletedDirectory => "deleted directory"

/-- A named stream beside the content of a file. -/
structure AlternateStream where
  name : String
  size : UInt64
  resident : Bool
  deriving DecidableEq, Repr

/-- A decoded file record. -/
structure Record where
  id : UInt64
  header : RecordHeader
  attributes : List Attribute
  parent : Option UInt64
  /-- The next record of the same file. -/
  link : Option UInt64
  /-- The size found in a directory index. -/
  derivedSize : Option UInt64
  warnings : List Warning
  deriving DecidableEq, Repr

namespace Record

def size : Nat := 1024

def isValid (r : Record) : Bool := r.header.signature == RecordHeader.fileSignature

def isDirectory (r : Record) : Bool := r.header.flags &&& RecordHeader.directoryFlag != 0

def isAllocated (r : Record) : Bool := r.header.flags &&& RecordHeader.inUseFlag != 0

def status (r : Record) : RecordStatus :=
  match r.isAllocated, r.isDirectory with
  | true, false => .file
  | true, true => .directory
  | false, false => .deletedFile
  | false, true => .deletedDirectory

/-- Whether the record extends another one. -/
def isExtension (r : Record) : Bool := r.header.base.record != 0

def attributesOf (r : Record) (kind : AttributeKind) : List Attribute :=
  r.attributes.filter (·.kind == kind)

def attribute? (r : Record) (kind : AttributeKind) : Option Attribute :=
  r.attributes.find? (·.kind == kind)

/-- The stream of a name; the unnamed one is the content of the file. -/
def stream? (r : Record) (name : Option String) : Option Attribute :=
  r.attributes.find? fun a => a.kind == .data && a.name == name

def fileNames (r : Record) : List FileName :=
  r.attributes.filterMap fun a =>
    match a.body with
    | .fileName f => some f
    | _ => none

/-- The name shown for the file, with what is stored beside it. -/
def preferredName? (r : Record) : Option FileName := FileName.preferred? r.fileNames

def name? (r : Record) : Option String := r.preferredName?.map FileName.name

def standardInformation? (r : Record) : Option StandardInformation :=
  r.attributes.findSome? fun a =>
    match a.body with
    | .standardInformation s => some s
    | _ => none

def alternateStreams (r : Record) : List AlternateStream :=
  (r.attributesOf .data).filterMap fun a =>
    a.name.map fun name => { name, size := a.contentSize, resident := !a.isNonResident }

/-- The size of the content: that of the unnamed stream, else the one found in an index. -/
def logicalSize? (r : Record) : Option UInt64 :=
  ((r.stream? none).map Attribute.contentSize).or r.derivedSize

/-- The space taken by the content: that of the unnamed stream, else the one beside the name. -/
def physicalSize? (r : Record) : Option UInt64 :=
  ((r.stream? none).map Attribute.allocatedSize).or (r.preferredName?.map FileName.allocatedSize)

/-- The times of the file itself. -/
def ownStamps (r : Record) : Stamps := (r.standardInformation?.map (·.stamps)).getD .none

/-- The times kept beside the name shown. -/
def nameStamps (r : Record) : Stamps := (r.preferredName?.map (·.stamps)).getD .none

end Record

end Ntfs
