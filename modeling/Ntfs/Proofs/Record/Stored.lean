import Ntfs.Proofs.Attribute.Stored
import Ntfs.Proofs.Bytes.Window
import Ntfs.Proofs.Fixup.Protect

/-!
# Stored records

A record is laid out as a header, the attributes back to back, and the end mark, with arbitrary bytes
between them and behind them; then its sectors are protected.  `parse_image` says that reading it gives
back these attributes in order and nothing else: no attribute is lost or moved by the size of another
one, by where it lies in a sector, or by what stands in the bytes that nobody uses.
-/

namespace Ntfs

open Bytes

/-- The kinds whose values are kept as they stand. -/
def AttributeKind.kept : List AttributeKind :=
  [.data, .bitmap, .securityDescriptor, .extendedInformation, .extended, .propertySet,
    .loggedUtilityStream]

/-- The bytes of content that is kept as it stands. -/
def AttributeBody.bytes? : AttributeBody → Option Bytes
  | .data bytes | .raw bytes => some bytes
  | .bitmap map => some map.bytes.toList
  | _ => none

theorem AttributeBody.bytes?_decode {kind : AttributeKind} (h : kind ∈ AttributeKind.kept)
    (name : Option String) (value : Bytes) : (decode kind name value).value.bytes? = some value := by
  simp only [AttributeKind.kept, List.mem_cons, List.not_mem_nil, or_false] at h
  obtain rfl | rfl | rfl | rfl | rfl | rfl | rfl := h
  · rfl
  · exact congrArg some (Buffer.toList_ofList value)
  all_goals rfl

namespace RecordHeader

/-- The bytes of a header, with a word that is not read. -/
def encode (h : RecordHeader) (reserved : UInt16) : Bytes :=
  [ofNatLE 4 h.signature.toNat, ofNatLE 2 h.arrayOffset.toNat, ofNatLE 2 h.arrayCount.toNat,
    ofNatLE 8 h.logSequence.toNat, ofNatLE 2 h.sequence.toNat, ofNatLE 2 h.hardLinks.toNat,
    ofNatLE 2 h.attributesOffset.toNat, ofNatLE 2 h.flags.toNat, ofNatLE 4 h.bytesInUse.toNat,
    ofNatLE 4 h.bytesAllocated.toNat, ofNatLE 8 h.base.toWord.toNat,
    ofNatLE 2 h.nextAttributeId.toNat, ofNatLE 2 reserved.toNat, ofNatLE 4 h.number.toNat].flatten

theorem length_encode (h : RecordHeader) (reserved : UInt16) : (h.encode reserved).length = size := rfl

theorem decode_encode {h : RecordHeader} (hbase : h.base.record.toNat < FileReference.recordBound)
    (reserved : UInt16) : decode (h.encode reserved) = h := by
  have hsignature : u32 (h.encode reserved) 0x00 = h.signature := u32_of_part rfl
  have harrayOffset : u16 (h.encode reserved) 0x04 = h.arrayOffset := u16_of_part rfl
  have harrayCount : u16 (h.encode reserved) 0x06 = h.arrayCount := u16_of_part rfl
  have hlogSequence : u64 (h.encode reserved) 0x08 = h.logSequence := u64_of_part rfl
  have hsequence : u16 (h.encode reserved) 0x10 = h.sequence := u16_of_part rfl
  have hhardLinks : u16 (h.encode reserved) 0x12 = h.hardLinks := u16_of_part rfl
  have hattributesOffset : u16 (h.encode reserved) 0x14 = h.attributesOffset := u16_of_part rfl
  have hflags : u16 (h.encode reserved) 0x16 = h.flags := u16_of_part rfl
  have hbytesInUse : u32 (h.encode reserved) 0x18 = h.bytesInUse := u32_of_part rfl
  have hbytesAllocated : u32 (h.encode reserved) 0x1C = h.bytesAllocated := u32_of_part rfl
  have hword : u64 (h.encode reserved) 0x20 = h.base.toWord := u64_of_part rfl
  have hnextAttributeId : u16 (h.encode reserved) 0x28 = h.nextAttributeId := u16_of_part rfl
  have hnumber : u32 (h.encode reserved) 0x2C = h.number := u32_of_part rfl
  rw [decode, hsignature, harrayOffset, harrayCount, hlogSequence, hsequence, hhardLinks,
    hattributesOffset, hflags, hbytesInUse, hbytesAllocated, hword, hnextAttributeId, hnumber,
    FileReference.ofWord_toWord hbase]

end RecordHeader

namespace Record

/-- Attributes back to back, closed by the end mark. -/
def streamOf (attributes : List StoredAttribute) : Bytes :=
  attributes.flatMap StoredAttribute.encode ++ ofNatLE 4 AttributeKind.endCode.toNat

theorem streamOf_cons (a : StoredAttribute) (rest : List StoredAttribute) :
    streamOf (a :: rest) = a.encode ++ streamOf rest := by
  rw [streamOf, List.flatMap_cons, List.append_assoc, ← streamOf]

variable {record after : Bytes} {offset : Nat}

theorem endsAt_of_drop (h : record.drop offset = streamOf [] ++ after) : EndsAt record offset := by
  have hpart : record.part offset 4 = ofNatLE 4 AttributeKind.endCode.toNat := by
    rw [part, h]
    rfl
  rw [EndsAt, u32?, word?_of_part hpart (by decide)]
  rfl

/-- A stored attribute declares the length of its own bytes. -/
theorem declares_of_drop (a : StoredAttribute) (h : record.drop offset = a.encode ++ after) :
    Declares record offset a.length.toNat := by
  have hheader : AttributeHeader.size ≤ a.length.toNat :=
    Nat.le_trans a.size_le_headerSize a.header_le
  have hsize : 16 ≤ a.length.toNat := hheader
  have hlength := congrArg List.length h
  rw [List.length_drop, List.length_append, a.length_encode] at hlength
  have hfield : ∀ field, field + 4 ≤ 16 → u32 record (offset + field) = u32 a.encode field := by
    intro field hle
    rw [← u32_drop, h]
    apply u32_of_take_eq (n := a.encode.length) _ (by rw [a.length_encode]; omega)
    rw [List.take_left', List.take_length]
    rfl
  exact {
    code_ne := by
      have hcode := hfield 0 (by decide)
      rw [Nat.add_zero, a.u32_code] at hcode
      rw [hcode]
      exact a.code_ne
    length_eq := by rw [hfield 4 (by decide), a.u32_length]
    header_le := hheader
    inside := by omega }

/-- A walk over stored attributes finds them in order, with the notes on each, and stops at the end
mark. -/
theorem attributesFrom_of_stored {attributes : List StoredAttribute}
    (h : record.drop offset = streamOf attributes ++ after) :
    attributesFrom offset (record.drop offset) =
      ⟨attributes.map StoredAttribute.toAttribute, attributes.flatMap StoredAttribute.notes⟩ := by
  induction attributes generalizing offset with
  | nil => exact attributesFrom_of_endsAt (endsAt_of_drop h)
  | cons a rest ih =>
      rw [streamOf_cons, List.append_assoc] at h
      have hpart : record.part offset a.length.toNat = a.encode := by
        rw [part, h, List.take_left' a.length_encode]
      have hrest : record.drop (offset + a.length.toNat) = streamOf rest ++ after := by
        rw [← List.drop_drop, h, List.drop_left' a.length_encode]
      rw [attributesFrom_of_declares (declares_of_drop a h), hpart, a.decodeWhole_encode, ih hrest]
      rfl

end Record

/-- A record as it is laid out. -/
structure StoredRecord where
  header : RecordHeader
  /-- The word of the header that is not read. -/
  reserved : UInt16
  attributes : List StoredAttribute
  /-- The bytes of the record before anything is written. -/
  filler : Bytes
  file : header.signature = RecordHeader.fileSignature
  base_lt : header.base.record.toNat < FileReference.recordBound
  size_le : filler.length ≤ Record.size
  header_le : RecordHeader.size ≤ header.attributesOffset.toNat
  fits : header.attributesOffset.toNat + (Record.streamOf attributes).length ≤ filler.length
  /-- An update sequence array stands between the header and the attributes. -/
  room : 2 ≤ header.arrayCount.toNat →
    Fixup.HasRoom filler.length header.arrayOffset.toNat header.arrayCount.toNat ∧
      RecordHeader.size ≤ header.arrayOffset.toNat ∧
      header.arrayOffset.toNat + 2 * header.arrayCount.toNat ≤ header.attributesOffset.toNat

namespace StoredRecord

variable (r : StoredRecord)

def layout : List Placed :=
  [⟨0, r.header.encode r.reserved⟩,
    ⟨r.header.attributesOffset.toNat, Record.streamOf r.attributes⟩]

/-- The bytes of the record without protection. -/
def encode : Bytes := r.filler.writeAll r.layout

/-- The record on disk, where `number` is its update sequence number. -/
def image (number : UInt8 × UInt8) : Buffer :=
  Fixup.protect (.ofList r.encode) r.header.arrayOffset.toNat r.header.arrayCount.toNat number

/-! ## The layout -/

/-- The attributes stand behind the header. -/
theorem headed : Headed r.filler (r.header.encode r.reserved)
    [⟨r.header.attributesOffset.toNat, Record.streamOf r.attributes⟩] where
  head_le := by
    rw [RecordHeader.length_encode]
    exact Nat.le_trans r.header_le (Nat.le_trans (Nat.le_add_right _ _) r.fits)
  between := by
    intro p hp
    rw [List.mem_singleton.mp hp, RecordHeader.length_encode]
    exact .inr ⟨r.header_le, r.fits⟩
  apart := List.pairwise_singleton _ _

theorem length_encode : r.encode.length = r.filler.length := r.headed.length_writeAll

theorem take_encode : r.encode.take RecordHeader.size = r.header.encode r.reserved := by
  rw [← RecordHeader.length_encode]
  exact r.headed.take_writeAll

theorem drop_encode : ∃ after, r.encode.drop r.header.attributesOffset.toNat =
    Record.streamOf r.attributes ++ after := by
  have hpart := r.headed.part_of_mem List.mem_cons_self
  exact ⟨_, (drop_eq_part_append _ _ _).trans (congrArg (· ++ _) hpart)⟩

/-! ## The image -/

theorem size_ofList_encode : (Buffer.ofList r.encode).size = r.filler.length := by
  rw [Buffer.size_ofList, r.length_encode]

theorem hasRoom (hcount : 2 ≤ r.header.arrayCount.toNat) :
    Fixup.HasRoom (Buffer.ofList r.encode).size r.header.arrayOffset.toNat
      r.header.arrayCount.toNat := by
  rw [r.size_ofList_encode]
  exact (r.room hcount).1

theorem size_image (number : UInt8 × UInt8) : (r.image number).size = r.filler.length := by
  rw [image, Fixup.size_protect r.hasRoom, r.size_ofList_encode]

/-- Protection does not touch the header. -/
theorem headerOf_image (number : UInt8 × UInt8) : Record.headerOf (r.image number) = r.header := by
  have hbytes : ∀ i, i < RecordHeader.size → (r.image number).byte i =
      (Buffer.ofList r.encode).byte i := by
    intro i hi
    rw [image]
    by_cases hcount : 2 ≤ r.header.arrayCount.toNat
    · obtain ⟨-, harray, -⟩ := r.room hcount
      apply Fixup.byte_protect_of_free (r.hasRoom hcount) hcount
      · exact .inl (Nat.lt_of_lt_of_le hi harray)
      · intro sector hsector
        have hpositive := (Fixup.mem_sectors_iff.mp hsector).1
        simp only [RecordHeader.size] at hi
        simp only [Fixup.tail, Fixup.sectorSize]
        omega
    · rw [Fixup.protect, if_pos (Nat.lt_of_not_le hcount)]
  rw [Record.headerOf, Buffer.window_eq, List.drop_zero,
    Buffer.take_toList_congr (by rw [r.size_image, r.size_ofList_encode]) hbytes,
    Buffer.toList_ofList, r.take_encode, RecordHeader.decode_encode r.base_lt]

/-- Undoing the protection leaves no fault, and the bytes from the first attribute on. -/
theorem settled_image (number : UInt8 × UInt8) :
    Record.fixupFault? (r.image number) = none ∧
      (Record.settledBytes (r.image number)).drop r.header.attributesOffset.toNat =
        r.encode.drop r.header.attributesOffset.toNat := by
  obtain ⟨restored, hrestored, hsize, hbytes⟩ := Fixup.restore_protect r.hasRoom number
  have hwhole : (r.image number).slice 0 Record.size = r.image number := by
    apply Buffer.slice_of_size_le
    rw [r.size_image]
    exact r.size_le
  have hfixup : Record.fixupOf (r.image number) = .ok restored := by
    rw [Record.fixupOf, hwhole, r.headerOf_image]
    exact hrestored
  refine ⟨by rw [Record.fixupFault?, hfixup], ?_⟩
  rw [Record.settledBytes, hfixup, Fixup.settled, Buffer.drop_toList_congr hsize,
    Buffer.toList_ofList]
  intro i hi
  apply hbytes
  intro hcount
  obtain ⟨-, -, hbefore⟩ := r.room hcount
  have hentries : Fixup.entries (Buffer.ofList r.encode).size r.header.arrayCount.toNat ≤
      r.header.arrayCount.toNat := Fixup.entries_le hcount
  omega

/-- The attributes of a record come back from its image in order, each with its header, the form of its
content and what its own decoder makes of its value, and the warnings are those on the attributes.  A
value of a kind that is not decoded is kept byte for byte. -/
theorem parse_image (id : UInt64) (number : UInt8 × UInt8) :
    Record.parse id (r.image number) =
        { Record.blank id r.header with
          attributes := r.attributes.map StoredAttribute.toAttribute
          warnings := (r.attributes.flatMap StoredAttribute.notes).map (Warning.ofNote id) } ∧
      ∀ a ∈ r.attributes, ∀ v, a.content = .resident v → a.kind ∈ AttributeKind.kept →
        a.toAttribute.body.bytes? = some v.value := by
  constructor
  · obtain ⟨hfault, hbytes⟩ := r.settled_image number
    obtain ⟨after, hstream⟩ := r.drop_encode
    have hstart : Record.attributesStart (r.image number) = r.header.attributesOffset.toNat := by
      rw [Record.attributesStart, r.headerOf_image]
    have hwalked : Record.walked (r.image number) =
        ⟨r.attributes.map StoredAttribute.toAttribute,
          r.attributes.flatMap StoredAttribute.notes⟩ := by
      rw [Record.walked, hstart, Record.attributesFrom_of_stored (hbytes.trans hstream)]
    rw [Record.parse_of_file id (by rw [r.headerOf_image]; exact r.file), r.headerOf_image, hfault,
      hwalked]
    rfl
  · intro a _ v hcontent hkind
    rw [StoredAttribute.toAttribute, hcontent]
    exact AttributeBody.bytes?_decode hkind a.text v.value

/-- A stream with a name whose value goes over the end of a sector. -/
def namedStream : StoredAttribute where
  code := 0x80
  length := 632
  flags := 0
  id := 1
  name := [0x61]
  nameOffset := 0x18
  content := .resident { value := List.replicate 600 7, offset := 0x20, indexed := 0, reserved := 0 }
  filler := List.replicate 632 0
  code_ne := by decide
  length_filler := List.length_replicate
  header_le := by decide
  name_le := by decide
  name_fits := .inr (by decide)
  content_fits := .inr ⟨by decide, by rw [List.length_replicate]; decide⟩
  apart := Placed.apart_of_le (by decide)

/-- A stream of 24 clusters that claims to be longer than its clusters. -/
def overlongStream : StoredAttribute where
  code := 0x80
  length := 72
  flags := 0
  id := 2
  name := []
  nameOffset := 0
  content := .nonResident
    { startVcn := 0, lastVcn := 23, pairs := [0x11, 0x18, 0x34, 0], offset := 0x40
      compressionUnit := 0, reserved := 0, allocatedLength := 4096, actualLength := 5000
      initializedLength := 5000 }
  filler := List.replicate 72 0
  code_ne := by decide
  length_filler := List.length_replicate
  header_le := by decide
  name_le := by decide
  name_fits := .inl rfl
  content_fits := ⟨by decide, by decide, by decide +kernel⟩
  apart := fun _ h => absurd h.1 (Nat.not_le.mpr h.2)

/-- The two streams in a record of two sectors. -/
def twoSectors : StoredRecord where
  header :=
    { signature := RecordHeader.fileSignature, arrayOffset := 0x30, arrayCount := 3
      logSequence := 0, sequence := 1, hardLinks := 1, attributesOffset := 0x38, flags := 1
      bytesInUse := 768, bytesAllocated := 1024, base := ⟨0, 0⟩, nextAttributeId := 3, number := 5 }
  reserved := 0
  attributes := [namedStream, overlongStream]
  filler := List.replicate 1024 0
  file := rfl
  base_lt := by decide
  size_le := Nat.le_of_eq List.length_replicate
  header_le := by decide
  fits := by
    rw [Record.streamOf_cons, Record.streamOf_cons, List.length_append, List.length_append,
      StoredAttribute.length_encode, StoredAttribute.length_encode, List.length_replicate]
    decide
  room := fun _ => by
    rw [List.length_replicate]
    exact ⟨⟨by decide, by decide⟩, by decide, by decide⟩

/-- A value that goes over the end of a sector, and a stream that is shorter than it claims. -/
theorem parse_image_twoSectors :
    (namedStream ∈ twoSectors.attributes ∧ namedStream.kind ∈ AttributeKind.kept) ∧
    (Record.parse 5 (twoSectors.image (1, 0))).attributes =
      [namedStream.toAttribute, overlongStream.toAttribute] ∧
    namedStream.toAttribute.name = some "a" ∧
    namedStream.toAttribute.body.bytes? = some (List.replicate 600 7) ∧
    (Record.parse 5 (twoSectors.image (1, 0))).warnings =
      [Warning.ofNote 5 (.actualAboveAllocated .data 5000 4096)] := by
  obtain ⟨hrecord, hkept⟩ := twoSectors.parse_image 5 (1, 0)
  have hmem : namedStream ∈ twoSectors.attributes := List.mem_cons_self
  have hkind : namedStream.kind ∈ AttributeKind.kept := by decide
  refine ⟨⟨hmem, hkind⟩, ?_, by decide, hkept _ hmem _ rfl hkind, ?_⟩
  · rw [hrecord]
    rfl
  · rw [hrecord]
    show (namedStream.notes ++ (overlongStream.notes ++ [])).map (Warning.ofNote 5) = _
    have hfirst : namedStream.notes = [] := by decide
    have hsecond : overlongStream.notes = [.actualAboveAllocated .data 5000 4096] := by
      decide +kernel
    rw [hfirst, hsecond]
    rfl

end StoredRecord

end Ntfs
