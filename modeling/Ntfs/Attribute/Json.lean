import Ntfs.Attribute.Basic
import Ntfs.Json.Decode
import Ntfs.Time.Rfc3339

/-!
# Attributes as JSON

The stored form of attributes: for each type a writer `toJson` and a reader `ofJson?`.  The reader
takes back what the writer gives, and is more lenient only as `Json.fields?` and `Json.tagged?`
are.
-/

namespace Ntfs

open Json

def Instant.toJson (t : Instant) : Json := .str (Rfc3339.zulu t)

def Instant.ofJson? (j : Json) : Option Instant := (str? j).bind Rfc3339.parse?

def word64 (n : Option UInt64) : Json := opt (fun n => nat n.toNat) n

def word32 (n : Option UInt32) : Json := opt (fun n => nat n.toNat) n

namespace Run

def toJson (r : Run) : Json :=
  .obj [("length", nat r.length.toNat), ("delta", .int r.delta.toInt), ("lcn", word64 r.lcn)]

def ofJson? (j : Json) : Option Run := do
  let [length, delta, lcn] ← fields? ["length", "delta", "lcn"] j | none
  return ⟨← required u64? length, ← required i64? delta, ← optional u64? lcn⟩

end Run

namespace RunList

def toJson (l : RunList) : Json :=
  .obj [("runs", list Run.toJson l.runs), ("complete", .bool l.complete),
    ("stop_reason", opt .str l.stopReason)]

def ofJson? (j : Json) : Option RunList := do
  let [runs, complete, stopReason] ← fields? ["runs", "complete", "stop_reason"] j | none
  return ⟨← required (list? Run.ofJson?) runs, ← required bool? complete,
    ← optional str? stopReason⟩

end RunList

namespace AttributeKind

/-- The tags of the kinds with a known meaning. -/
def tags : List (AttributeKind × String) := [
  (standardInformation, "StandardInformation"), (attributeList, "AttributeList"),
  (fileName, "FileName"), (objectId, "ObjectId"), (securityDescriptor, "SecurityDescriptor"),
  (volumeName, "VolumeName"), (volumeInformation, "VolumeInformation"), (data, "Data"),
  (indexRoot, "IndexRoot"), (indexAllocation, "IndexAllocation"), (bitmap, "Bitmap"),
  (reparsePoint, "ReparsePoint"), (extendedInformation, "EaInformation"), (extended, "Ea"),
  (propertySet, "PropertySet"), (loggedUtilityStream, "LoggedUtilityStream"), (endMark, "End")]

def toJson (kind : AttributeKind) : Json :=
  match kind with
  | other code => .obj [("Unknown", nat code.toNat)]
  | kind => .str ((tags.lookup kind).getD "")

def ofJson? (j : Json) : Option AttributeKind := do
  let (tag, value) ← tagged? j
  if tag = "Unknown" then return other (← required u32? value)
  else if isBare value then (tags.find? (·.2 == tag)).map (·.1)
  else none

end AttributeKind

namespace Namespace

def toJson : Namespace → Json
  | posix => .str "Posix"
  | win32 => .str "Win32"
  | dos => .str "Dos"
  | win32AndDos => .str "Win32AndDos"
  | other b => .obj [("Unknown", nat b.toNat)]

def ofJson? (j : Json) : Option Namespace := do
  let (tag, value) ← tagged? j
  if tag = "Unknown" then return other (← required u8? value)
  else if isBare value then
    [("Posix", posix), ("Win32", win32), ("Dos", dos), ("Win32AndDos", win32AndDos)].lookup tag
  else none

end Namespace

namespace Stamps

def members (s : Stamps) : List (String × Json) := [
  ("created", opt Instant.toJson s.created), ("modified", opt Instant.toJson s.modified),
  ("mft_modified", opt Instant.toJson s.recordModified),
  ("accessed", opt Instant.toJson s.accessed)]

def ofMembers? (created modified recordModified accessed : Option Json) : Option Stamps :=
  return ⟨← optional Instant.ofJson? created, ← optional Instant.ofJson? modified,
    ← optional Instant.ofJson? recordModified, ← optional Instant.ofJson? accessed⟩

end Stamps

namespace StandardInformation

def toJson (s : StandardInformation) : Json :=
  .obj (s.stamps.members ++ [
    ("file_attrs", nat s.flags.toNat), ("max_versions", nat s.maxVersions.toNat),
    ("version_number", nat s.version.toNat), ("class_id", nat s.classId.toNat),
    ("owner_id", word32 s.ownerId), ("security_id", word32 s.securityId),
    ("quota_charged", word64 s.quotaCharged), ("usn", word64 s.journalSequence)])

def ofJson? (j : Json) : Option StandardInformation := do
  let [created, modified, recordModified, accessed, flags, maxVersions, version, classId, ownerId,
      securityId, quotaCharged, journalSequence] ← fields? ["created", "modified", "mft_modified",
      "accessed", "file_attrs", "max_versions", "version_number", "class_id", "owner_id",
      "security_id", "quota_charged", "usn"] j | none
  return {
    stamps := ← Stamps.ofMembers? created modified recordModified accessed
    flags := ← required u32? flags
    maxVersions := ← required u32? maxVersions
    version := ← required u32? version
    classId := ← required u32? classId
    ownerId := ← optional u32? ownerId
    securityId := ← optional u32? securityId
    quotaCharged := ← optional u64? quotaCharged
    journalSequence := ← optional u64? journalSequence }

end StandardInformation

namespace ListEntry

def toJson (e : ListEntry) : Json :=
  .obj [("attr_type", e.kind.toJson), ("length", nat e.length.toNat),
    ("name_length", nat e.nameLength.toNat), ("name_offset", nat e.nameOffset.toNat),
    ("starting_vcn", nat e.startVcn.toNat), ("record", nat e.holder.record.toNat),
    ("sequence", nat e.holder.sequence.toNat), ("attribute_id", nat e.attributeId.toNat),
    ("name", opt .str e.name)]

def ofJson? (j : Json) : Option ListEntry := do
  let [kind, length, nameLength, nameOffset, startVcn, record, sequence, attributeId, name] ←
    fields? ["attr_type", "length", "name_length", "name_offset", "starting_vcn", "record",
      "sequence", "attribute_id", "name"] j | none
  return {
    kind := ← required AttributeKind.ofJson? kind
    length := ← required u16? length
    nameLength := ← required u8? nameLength
    nameOffset := ← required u8? nameOffset
    startVcn := ← required u64? startVcn
    holder := ⟨← required u64? record, ← required u16? sequence⟩
    attributeId := ← required u16? attributeId
    name := ← optional str? name }

end ListEntry

namespace FileName

def toJson (f : FileName) : Json :=
  .obj ([("parent_ref", nat f.parent.record.toNat), ("parent_seq", nat f.parent.sequence.toNat)]
    ++ f.stamps.members ++ [
    ("allocated_size", nat f.allocatedSize.toNat), ("real_size", nat f.realSize.toNat),
    ("flags", nat f.flags.toNat), ("reparse_tag", nat f.reparseTag.toNat),
    ("name_length", nat f.nameLength.toNat), ("namespace", f.space.toJson),
    ("name", .str f.name)])

def ofJson? (j : Json) : Option FileName := do
  let [record, sequence, created, modified, recordModified, accessed, allocatedSize, realSize,
      flags, reparseTag, nameLength, space, name] ← fields? ["parent_ref", "parent_seq", "created",
      "modified", "mft_modified", "accessed", "allocated_size", "real_size", "flags",
      "reparse_tag", "name_length", "namespace", "name"] j | none
  return {
    parent := ⟨← required u64? record, ← required u16? sequence⟩
    stamps := ← Stamps.ofMembers? created modified recordModified accessed
    allocatedSize := ← required u64? allocatedSize
    realSize := ← required u64? realSize
    flags := ← required u32? flags
    reparseTag := ← required u32? reparseTag
    nameLength := ← required u8? nameLength
    space := ← required Namespace.ofJson? space
    name := ← required str? name }

/-- The short form shown in listings. -/
def summary (f : FileName) : Json :=
  .obj ([("name", .str f.name), ("namespace", .str f.space.name),
    ("parent", nat f.parent.record.toNat), ("parent_seq", nat f.parent.sequence.toNat),
    ("allocated", nat f.allocatedSize.toNat), ("size", nat f.realSize.toNat)]
    ++ f.stamps.members ++ [("flags", nat f.flags.toNat)])

end FileName

namespace ObjectId

def toJson (o : ObjectId) : Json :=
  .obj [("object_id", .str o.object), ("birth_volume_id", opt .str o.birthVolume),
    ("birth_object_id", opt .str o.birthObject), ("domain_id", opt .str o.domain)]

def ofJson? (j : Json) : Option ObjectId := do
  let [object, birthVolume, birthObject, domain] ← fields? ["object_id", "birth_volume_id",
    "birth_object_id", "domain_id"] j | none
  return ⟨← required str? object, ← optional str? birthVolume, ← optional str? birthObject,
    ← optional str? domain⟩

end ObjectId

namespace VolumeInformation

def toJson (v : VolumeInformation) : Json :=
  .obj [("major_version", nat v.major.toNat), ("minor_version", nat v.minor.toNat),
    ("flags", nat v.flags.toNat)]

def ofJson? (j : Json) : Option VolumeInformation := do
  let [major, minor, flags] ← fields? ["major_version", "minor_version", "flags"] j | none
  return ⟨← required u8? major, ← required u8? minor, ← required u16? flags⟩

end VolumeInformation

namespace Bitmap

def toJson (m : Bitmap) : Json := .obj [("bytes", Json.bytes m.bytes.toList)]

def ofJson? (j : Json) : Option Bitmap := do
  let [bytes] ← fields? ["bytes"] j | none
  return ⟨.ofList (← required bytes? bytes)⟩

end Bitmap

namespace ReparsePoint

def toJson (r : ReparsePoint) : Json :=
  .obj [("tag", nat r.tag.toNat), ("data_length", nat r.dataLength.toNat),
    ("substitute_name", opt .str r.substituteName), ("print_name", opt .str r.printName)]

def ofJson? (j : Json) : Option ReparsePoint := do
  let [tag, dataLength, substituteName, printName] ← fields? ["tag", "data_length",
    "substitute_name", "print_name"] j | none
  return ⟨← required u32? tag, ← required u16? dataLength, ← optional str? substituteName,
    ← optional str? printName⟩

end ReparsePoint

namespace IndexNode

def toJson (n : IndexNode) : Json :=
  .obj [("entries_offset", nat n.entriesOffset.toNat), ("index_length", nat n.usedLength.toNat),
    ("allocated_size", nat n.allocatedSize.toNat), ("flags", nat n.flags.toNat)]

def ofJson? (j : Json) : Option IndexNode := do
  let [entriesOffset, usedLength, allocatedSize, flags] ← fields? ["entries_offset",
    "index_length", "allocated_size", "flags"] j | none
  return ⟨← required u32? entriesOffset, ← required u32? usedLength,
    ← required u32? allocatedSize, ← required u8? flags⟩

end IndexNode

namespace IndexEntry

def toJson (e : IndexEntry) : Json :=
  .obj [("file_reference", nat e.file.record.toNat), ("sequence", nat e.file.sequence.toNat),
    ("length", nat e.length.toNat), ("key_length", nat e.keyLength.toNat),
    ("flags", nat e.flags.toNat), ("file_name", opt FileName.toJson e.fileName),
    ("subnode_vcn", word64 e.childVcn)]

def ofJson? (j : Json) : Option IndexEntry := do
  let [record, sequence, length, keyLength, flags, fileName, childVcn] ← fields?
    ["file_reference", "sequence", "length", "key_length", "flags", "file_name", "subnode_vcn"] j
    | none
  return {
    file := ⟨← required u64? record, ← required u16? sequence⟩
    length := ← required u16? length
    keyLength := ← required u16? keyLength
    flags := ← required u32? flags
    fileName := ← optional FileName.ofJson? fileName
    childVcn := ← optional u64? childVcn }

end IndexEntry

namespace IndexRoot

def toJson (r : IndexRoot) : Json :=
  .obj [("indexed_type", nat r.indexedCode.toNat), ("collation_rule", nat r.collation.toNat),
    ("index_block_size", nat r.blockSize.toNat),
    ("clusters_per_block", nat r.clustersPerBlock.toNat), ("node", r.node.toJson),
    ("entries", list IndexEntry.toJson r.entries)]

def ofJson? (j : Json) : Option IndexRoot := do
  let [indexedCode, collation, blockSize, clustersPerBlock, node, entries] ← fields?
    ["indexed_type", "collation_rule", "index_block_size", "clusters_per_block", "node",
      "entries"] j | none
  return {
    indexedCode := ← required u32? indexedCode
    collation := ← required u32? collation
    blockSize := ← required u32? blockSize
    clustersPerBlock := ← required u8? clustersPerBlock
    node := ← required IndexNode.ofJson? node
    entries := ← required (list? IndexEntry.ofJson?) entries }

end IndexRoot

namespace IndexAllocation

def toJson (a : IndexAllocation) : Json :=
  .obj [("loaded", .bool a.loaded), ("blocks", nat a.blocks.toNat),
    ("entries", list IndexEntry.toJson a.entries)]

def ofJson? (j : Json) : Option IndexAllocation := do
  let [loaded, blocks, entries] ← fields? ["loaded", "blocks", "entries"] j | none
  return ⟨← required bool? loaded, ← required u64? blocks,
    ← required (list? IndexEntry.ofJson?) entries⟩

end IndexAllocation

namespace AttributeHeader

def toJson (h : AttributeHeader) : Json :=
  .obj [("attr_type", h.kind.toJson), ("length", nat h.length.toNat),
    ("non_resident", .bool h.nonResident), ("name_length", nat h.nameLength.toNat),
    ("name_offset", nat h.nameOffset.toNat), ("flags", nat h.flags.toNat),
    ("id", nat h.id.toNat), ("name", opt .str h.name)]

def ofJson? (j : Json) : Option AttributeHeader := do
  let [kind, length, nonResident, nameLength, nameOffset, flags, id, name] ← fields? ["attr_type",
    "length", "non_resident", "name_length", "name_offset", "flags", "id", "name"] j | none
  return {
    kind := ← required AttributeKind.ofJson? kind
    length := ← required u32? length
    nonResident := ← required bool? nonResident
    nameLength := ← required u8? nameLength
    nameOffset := ← required u16? nameOffset
    flags := ← required u16? flags
    id := ← required u16? id
    name := ← optional str? name }

end AttributeHeader

namespace ResidentForm

def toJson (f : ResidentForm) : Json :=
  .obj [("value_length", nat f.valueLength.toNat), ("value_offset", nat f.valueOffset.toNat),
    ("indexed", nat f.indexed.toNat)]

def ofJson? (j : Json) : Option ResidentForm := do
  let [valueLength, valueOffset, indexed] ← fields? ["value_length", "value_offset", "indexed"] j
    | none
  return ⟨← required u32? valueLength, ← required u16? valueOffset, ← required u8? indexed⟩

end ResidentForm

namespace NonResidentForm

def toJson (f : NonResidentForm) : Json :=
  .obj [("start_vcn", nat f.startVcn.toNat), ("last_vcn", nat f.lastVcn.toNat),
    ("run_list_offset", nat f.runListOffset.toNat),
    ("compression_unit", nat f.compressionUnit.toNat),
    ("allocated_length", nat f.allocatedLength.toNat),
    ("actual_length", nat f.actualLength.toNat),
    ("initialized_length", nat f.initializedLength.toNat), ("run_list", f.runList.toJson)]

def ofJson? (j : Json) : Option NonResidentForm := do
  let [startVcn, lastVcn, runListOffset, compressionUnit, allocatedLength, actualLength,
      initializedLength, runList] ← fields? ["start_vcn", "last_vcn", "run_list_offset",
      "compression_unit", "allocated_length", "actual_length", "initialized_length", "run_list"] j
    | none
  return {
    startVcn := ← required u64? startVcn
    lastVcn := ← required u64? lastVcn
    runListOffset := ← required u16? runListOffset
    compressionUnit := ← required u16? compressionUnit
    allocatedLength := ← required u64? allocatedLength
    actualLength := ← required u64? actualLength
    initializedLength := ← required u64? initializedLength
    runList := ← required RunList.ofJson? runList }

end NonResidentForm

namespace Residency

def toJson : Residency → Json
  | resident form => .obj [("Resident", form.toJson)]
  | nonResident form => .obj [("NonResident", form.toJson)]

def ofJson? (j : Json) : Option Residency := do
  let (tag, value) ← tagged? j
  if tag = "Resident" then return resident (← required ResidentForm.ofJson? value)
  else if tag = "NonResident" then return nonResident (← required NonResidentForm.ofJson? value)
  else none

end Residency

namespace AttributeBody

def toJson : AttributeBody → Json
  | standardInformation value => .obj [("StandardInformation", value.toJson)]
  | attributeList entries => .obj [("AttributeList", list ListEntry.toJson entries)]
  | fileName value => .obj [("FileName", value.toJson)]
  | objectId value => .obj [("ObjectId", value.toJson)]
  | volumeName name => .obj [("VolumeName", .str name)]
  | volumeInformation value => .obj [("VolumeInformation", value.toJson)]
  | data bytes => .obj [("Data", Json.bytes bytes)]
  | indexRoot value => .obj [("IndexRoot", value.toJson)]
  | indexAllocation value => .obj [("IndexAllocation", value.toJson)]
  | bitmap value => .obj [("Bitmap", value.toJson)]
  | reparsePoint value => .obj [("ReparsePoint", value.toJson)]
  | raw bytes => .obj [("Raw", Json.bytes bytes)]
  | undecoded => .str "Undecoded"

def ofJson? (j : Json) : Option AttributeBody := do
  let (tag, value) ← tagged? j
  match tag with
  | "StandardInformation" =>
    return standardInformation (← required StandardInformation.ofJson? value)
  | "AttributeList" => return attributeList (← required (list? ListEntry.ofJson?) value)
  | "FileName" => return fileName (← required FileName.ofJson? value)
  | "ObjectId" => return objectId (← required ObjectId.ofJson? value)
  | "VolumeName" => return volumeName (← required str? value)
  | "VolumeInformation" => return volumeInformation (← required VolumeInformation.ofJson? value)
  | "Data" => return data (← required bytes? value)
  | "IndexRoot" => return indexRoot (← required IndexRoot.ofJson? value)
  | "IndexAllocation" => return indexAllocation (← required IndexAllocation.ofJson? value)
  | "Bitmap" => return bitmap (← required Bitmap.ofJson? value)
  | "ReparsePoint" => return reparsePoint (← required ReparsePoint.ofJson? value)
  | "Raw" => return raw (← required bytes? value)
  | "Undecoded" => if isBare value then some undecoded else none
  | _ => none

end AttributeBody

namespace Attribute

def toJson (a : Attribute) : Json :=
  .obj [("header", a.header.toJson), ("residency", a.residency.toJson), ("body", a.body.toJson)]

def ofJson? (j : Json) : Option Attribute := do
  let [header, residency, body] ← fields? ["header", "residency", "body"] j | none
  return ⟨← required AttributeHeader.ofJson? header, ← required Residency.ofJson? residency,
    ← required AttributeBody.ofJson? body⟩

end Attribute

end Ntfs
