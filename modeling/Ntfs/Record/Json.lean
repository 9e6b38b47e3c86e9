import Ntfs.Attribute.Describe
import Ntfs.Attribute.Json
import Ntfs.Record.Basic

/-!
# Records as JSON

Two forms: `toJson` stores a record whole, and `ofJson?` takes it back; `summary` is the shorter
view shown to people.
-/

namespace Ntfs

open Json

namespace Warning

def toJson : Warning → Json
  | corruption record message => .obj [("StructuralCorruption",
      .obj [("record", nat record.toNat), ("message", .str message)])]
  | dangling record target message => .obj [("DanglingReference",
      .obj [("record", nat record.toNat), ("target", nat target.toNat), ("message", .str message)])]
  | outOfRange record offset message => .obj [("IoOutOfRange",
      .obj [("record", nat record.toNat), ("offset", nat offset.toNat), ("message", .str message)])]

def ofJson? (j : Json) : Option Warning := do
  let (tag, some value) ← tagged? j | none
  match tag with
  | "StructuralCorruption" =>
    let [record, message] ← members? ["record", "message"] value | none
    return corruption (← required u64? record) (← required str? message)
  | "DanglingReference" =>
    let [record, target, message] ← members? ["record", "target", "message"] value | none
    return dangling (← required u64? record) (← required u64? target) (← required str? message)
  | "IoOutOfRange" =>
    let [record, offset, message] ← members? ["record", "offset", "message"] value | none
    return outOfRange (← required u64? record) (← required u64? offset) (← required str? message)
  | _ => none

end Warning

namespace RecordHeader

def toJson (h : RecordHeader) : Json :=
  .obj [("signature", Json.bytes (Bytes.ofNatLE 4 h.signature.toNat)),
    ("usa_offset", nat h.arrayOffset.toNat), ("usa_count", nat h.arrayCount.toNat),
    ("lsn", nat h.logSequence.toNat), ("sequence_number", nat h.sequence.toNat),
    ("hard_link_count", nat h.hardLinks.toNat), ("attrs_offset", nat h.attributesOffset.toNat),
    ("flags", nat h.flags.toNat), ("bytes_in_use", nat h.bytesInUse.toNat),
    ("bytes_allocated", nat h.bytesAllocated.toNat), ("base_record", nat h.base.record.toNat),
    ("base_sequence", nat h.base.sequence.toNat), ("next_attr_id", nat h.nextAttributeId.toNat),
    ("entry_number", nat h.number.toNat)]

def signature? (j : Json) : Option UInt32 := do
  let bytes ← bytes? j
  if bytes.length = 4 then return UInt32.ofNat (Bytes.toNatLE bytes) else none

def ofJson? (j : Json) : Option RecordHeader := do
  let [signature, arrayOffset, arrayCount, logSequence, sequence, hardLinks, attributesOffset,
      flags, bytesInUse, bytesAllocated, baseRecord, baseSequence, nextAttributeId, number] ←
    fields? ["signature", "usa_offset", "usa_count", "lsn", "sequence_number", "hard_link_count",
      "attrs_offset", "flags", "bytes_in_use", "bytes_allocated", "base_record", "base_sequence",
      "next_attr_id", "entry_number"] j | none
  return {
    signature := ← required signature? signature
    arrayOffset := ← required u16? arrayOffset
    arrayCount := ← required u16? arrayCount
    logSequence := ← required u64? logSequence
    sequence := ← required u16? sequence
    hardLinks := ← required u16? hardLinks
    attributesOffset := ← required u16? attributesOffset
    flags := ← required u16? flags
    bytesInUse := ← required u32? bytesInUse
    bytesAllocated := ← required u32? bytesAllocated
    base := ⟨← required u64? baseRecord, ← required u16? baseSequence⟩
    nextAttributeId := ← required u16? nextAttributeId
    number := ← required u32? number }

end RecordHeader

namespace RecordStatus

def toJson : RecordStatus → Json
  | file => .str "AllocatedFile"
  | directory => .str "AllocatedDirectory"
  | deletedFile => .str "UnallocatedFile"
  | deletedDirectory => .str "UnallocatedDirectory"

end RecordStatus

namespace AlternateStream

def toJson (s : AlternateStream) : Json :=
  .obj [("name", .str s.name), ("size", nat s.size.toNat), ("resident", .bool s.resident)]

end AlternateStream

namespace Record

def toJson (r : Record) : Json :=
  .obj [("id", nat r.id.toNat), ("header", r.header.toJson),
    ("attributes", list Attribute.toJson r.attributes), ("parent", word64 r.parent),
    ("linked_record", word64 r.link), ("derived_size", word64 r.derivedSize),
    ("warnings", list Warning.toJson r.warnings)]

def ofJson? (j : Json) : Option Record := do
  let [id, header, attributes, parent, link, derivedSize, warnings] ← fields? ["id", "header",
    "attributes", "parent", "linked_record", "derived_size", "warnings"] j | none
  return {
    id := ← required u64? id
    header := ← required RecordHeader.ofJson? header
    attributes := ← required (list? Attribute.ofJson?) attributes
    parent := ← optional u64? parent
    link := ← optional u64? link
    derivedSize := ← optional u64? derivedSize
    warnings := ← required (list? Warning.ofJson?) warnings }

def stampMembers (label : String) (s : Stamps) : List (String × Json) :=
  s.members.map fun (name, value) => (label ++ name, value)

def stamps (r : Record) : Json :=
  .obj (stampMembers "si_" r.ownStamps ++ stampMembers "fn_" r.nameStamps)

/-- The view shown to people. -/
def summary (r : Record) : Json :=
  .obj [("id", nat r.id.toNat), ("header", r.header.toJson), ("status", r.status.toJson),
    ("parent", word64 r.parent), ("linked_record", word64 r.link),
    ("logical_size", word64 r.logicalSize?),
    ("attributes", list (fun a => .str a.describe) r.attributes),
    ("file_names", list FileName.summary r.fileNames),
    ("ads", list AlternateStream.toJson r.alternateStreams), ("timestamps", r.stamps)]

end Record

end Ntfs
