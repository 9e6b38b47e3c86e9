import Ntfs.Attribute.Parse
import Ntfs.Record.Basic

/-!
# Reading file records

`Record.parse` never fails.  It undoes the sector protection, then walks the attributes by their
declared lengths up to the end mark; what an attribute holds never moves the next one.  Whatever
is wrong is told in the warnings.
-/

namespace Ntfs

namespace RecordHeader

def size : Nat := 0x30

/-- Read the fixed fields; fields past the end of a cut record read as zero. -/
def decode (raw : Bytes) : RecordHeader where
  signature := Bytes.u32 raw 0x00
  arrayOffset := Bytes.u16 raw 0x04
  arrayCount := Bytes.u16 raw 0x06
  logSequence := Bytes.u64 raw 0x08
  sequence := Bytes.u16 raw 0x10
  hardLinks := Bytes.u16 raw 0x12
  attributesOffset := Bytes.u16 raw 0x14
  flags := Bytes.u16 raw 0x16
  bytesInUse := Bytes.u32 raw 0x18
  bytesAllocated := Bytes.u32 raw 0x1C
  base := FileReference.ofWord (Bytes.u64 raw 0x20)
  nextAttributeId := Bytes.u16 raw 0x28
  number := Bytes.u32 raw 0x2C

end RecordHeader

namespace Record

/-- The attributes from `offset` on, where `rest` is the record from there. -/
def attributesFrom (offset : Nat) (rest : Bytes) : Noted (List Attribute) :=
  if rest = [] then .clean []
  else
    match Bytes.u32? rest 0 with
    | none => .note [] (.streamEnds offset)
    | some code =>
      let declared := (Bytes.u32 rest 4).toNat
      if code = AttributeKind.endCode then .clean []
      else if declared < AttributeHeader.size then .note [] (.attributeLength offset declared)
      else
        let available := rest.length
        let overrun := if available < declared
          then [Note.attributeOverrun offset declared available] else []
        let front := Attribute.decode (rest.take declared)
        match front.value with
        | none => ⟨[], overrun ++ front.notes⟩
        | some a =>
          let tail := attributesFrom (offset + declared) (rest.drop declared)
          ⟨a :: tail.value, overrun ++ front.notes ++ tail.notes⟩
termination_by rest.length
decreasing_by
  have : 0 < rest.length := List.length_pos_iff.mpr ‹_›
  simp only [AttributeHeader.size, List.length_drop] at *
  omega

/-- A record that carries no data. -/
def blank (id : UInt64) (header : RecordHeader) : Record where
  id
  header
  attributes := []
  parent := none
  link := none
  derivedSize := none
  warnings := []

/-- Read record number `id`. -/
def parse (id : UInt64) (raw : Buffer) : Record :=
  let record := blank id (RecordHeader.decode (raw.window 0 RecordHeader.size))
  if record.isValid then
    let buf := raw.slice 0 size
    let start := record.header.attributesOffset.toNat
    let outcome :=
      Fixup.restore buf record.header.arrayOffset.toNat record.header.arrayCount.toNat
    let torn := match outcome with
      | .ok _ => []
      | .error fault => [Warning.corruption id fault.message]
    let attributes := attributesFrom start ((Fixup.settled buf outcome).window start size)
    { record with
      attributes := attributes.value
      warnings := torn ++ attributes.notes.map (Warning.ofNote id) }
  else record

end Record

end Ntfs
