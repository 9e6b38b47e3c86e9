import Ntfs.Attribute.Bitmap
import Ntfs.Attribute.Index
import Ntfs.Attribute.ListEntry
import Ntfs.Attribute.ObjectId
import Ntfs.Attribute.ReparsePoint
import Ntfs.Attribute.StandardInformation
import Ntfs.Attribute.VolumeInformation
import Ntfs.RunList

/-!
# Attributes

An attribute is a header, the form its content is stored in, and what the content says.  Resident
content stands in the record itself; non-resident content lies in runs on the disk, and only the
sizes and the run list stand in the record.
-/

namespace Ntfs

/-- The part of the header that all attributes share. -/
structure AttributeHeader where
  kind : AttributeKind
  /-- The bytes the attribute takes in its record, as declared. -/
  length : UInt32
  nonResident : Bool
  nameLength : UInt8
  nameOffset : UInt16
  flags : UInt16
  id : UInt16
  name : Option String
  deriving DecidableEq, Repr

/-- Where resident content stands in its attribute. -/
structure ResidentForm where
  valueLength : UInt32
  valueOffset : UInt16
  indexed : UInt8
  deriving DecidableEq, Repr

/-- Where non-resident content lies on the disk. -/
structure NonResidentForm where
  startVcn : UInt64
  lastVcn : UInt64
  runListOffset : UInt16
  compressionUnit : UInt16
  allocatedLength : UInt64
  actualLength : UInt64
  initializedLength : UInt64
  runList : RunList
  deriving DecidableEq, Repr

/-- The form the content of an attribute is stored in. -/
inductive Residency where
  | resident (form : ResidentForm)
  | nonResident (form : NonResidentForm)
  deriving DecidableEq, Repr

/-- What the content of an attribute says. -/
inductive AttributeBody where
  | standardInformation (value : StandardInformation)
  | attributeList (entries : List ListEntry)
  | fileName (value : FileName)
  | objectId (value : ObjectId)
  | volumeName (name : String)
  | volumeInformation (value : VolumeInformation)
  /-- Resident content as it stands; empty for content on the disk. -/
  | data (bytes : Bytes)
  | indexRoot (value : IndexRoot)
  | indexAllocation (value : IndexAllocation)
  | bitmap (value : Bitmap)
  | reparsePoint (value : ReparsePoint)
  /-- Resident content of a kind that is not decoded. -/
  | raw (bytes : Bytes)
  /-- Nothing could be decoded. -/
  | undecoded
  deriving DecidableEq, Repr

/-- An attribute of a file. -/
structure Attribute where
  header : AttributeHeader
  residency : Residency
  body : AttributeBody
  deriving DecidableEq, Repr

namespace Attribute

def kind (a : Attribute) : AttributeKind := a.header.kind

def name (a : Attribute) : Option String := a.header.name

/-- The form of content on the disk, if it lies there. -/
def nonResident? (a : Attribute) : Option NonResidentForm :=
  match a.residency with
  | .resident _ => none
  | .nonResident form => some form

def isNonResident (a : Attribute) : Bool := a.nonResident?.isSome

def contentSize (a : Attribute) : UInt64 :=
  match a.residency with
  | .resident form => form.valueLength.toUInt64
  | .nonResident form => form.actualLength

/-- The space set aside for the content. -/
def allocatedSize (a : Attribute) : UInt64 :=
  match a.residency with
  | .resident form => form.valueLength.toUInt64
  | .nonResident form => form.allocatedLength

/-- Whether this is the first extent of its stream: only there do the sizes mean the stream. -/
def isFirstExtent (a : Attribute) : Bool :=
  match a.residency with
  | .resident _ => true
  | .nonResident form => form.startVcn == 0

end Attribute

end Ntfs
