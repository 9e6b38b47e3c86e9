import Ntfs.Proofs.Record.Walk
import Ntfs.Proofs.RunList.Extension

/-!
# Stored attributes

An attribute is laid out as a header, a name and a payload: the value itself, or the run list that says
where it lies.  Only the header has a fixed place; name and payload stand anywhere behind it where they
do not overlap, with arbitrary bytes around them.  This file states that layout on its own, as what may
be written down, and `decodeWhole_encode` says that it is read back.
-/

namespace Ntfs

open Bytes

/-- Resident content as it is laid out. -/
structure StoredValue where
  value : Bytes
  offset : UInt16
  indexed : UInt8
  reserved : UInt8

/-- Content on the disk as it is laid out. -/
structure StoredExtent where
  startVcn : UInt64
  lastVcn : UInt64
  pairs : Bytes
  offset : UInt16
  compressionUnit : UInt16
  reserved : UInt32
  allocatedLength : UInt64
  actualLength : UInt64
  initializedLength : UInt64

/-- The content of an attribute as it is laid out. -/
inductive StoredContent where
  | resident (v : StoredValue)
  | nonResident (e : StoredExtent)

namespace StoredContent

/-- The byte that tells the two forms apart. -/
def mark : StoredContent → UInt8
  | resident _ => 0
  | nonResident _ => 1

def headerSize : StoredContent → Nat
  | resident _ => ResidentForm.headerSize
  | nonResident _ => NonResidentForm.headerSize

/-- The part of the header that follows the shared one. -/
def head : StoredContent → Bytes
  | resident v =>
    [ofNatLE 4 v.value.length, ofNatLE 2 v.offset.toNat, [v.indexed, v.reserved]].flatten
  | nonResident e =>
    [ofNatLE 8 e.startVcn.toNat, ofNatLE 8 e.lastVcn.toNat, ofNatLE 2 e.offset.toNat,
      ofNatLE 2 e.compressionUnit.toNat, ofNatLE 4 e.reserved.toNat,
      ofNatLE 8 e.allocatedLength.toNat, ofNatLE 8 e.actualLength.toNat,
      ofNatLE 8 e.initializedLength.toNat].flatten

def payload : StoredContent → Placed
  | resident v => ⟨v.offset.toNat, v.value⟩
  | nonResident e => ⟨e.offset.toNat, e.pairs⟩

/-- The content fits into an attribute of the given length.  A run list that does not come to its end is
cut off by the end of the attribute. -/
def Fits (length : Nat) : StoredContent → Prop
  | resident v =>
    v.value = [] ∨
      ResidentForm.headerSize ≤ v.offset.toNat ∧ v.offset.toNat + v.value.length ≤ length
  | nonResident e =>
    NonResidentForm.headerSize ≤ e.offset.toNat ∧ e.offset.toNat + e.pairs.length ≤ length ∧
      (RunList.isCut e.pairs = true → e.offset.toNat + e.pairs.length = length)

def residency : StoredContent → Residency
  | resident v =>
    .resident
      { valueLength := UInt32.ofNat v.value.length
        valueOffset := v.offset
        indexed := v.indexed }
  | nonResident e =>
    .nonResident
      { startVcn := e.startVcn
        lastVcn := e.lastVcn
        runListOffset := e.offset
        compressionUnit := e.compressionUnit
        allocatedLength := e.allocatedLength
        actualLength := e.actualLength
        initializedLength := e.initializedLength
        runList := RunList.decode e.pairs }

/-- What the content says: a value goes whole to the decoder of its kind. -/
def body (kind : AttributeKind) (name : Option String) : StoredContent → AttributeBody
  | resident v => (AttributeBody.decode kind name v.value).value
  | nonResident _ => AttributeBody.placeholder kind

def notes (kind : AttributeKind) (name : Option String) : StoredContent → List Note
  | resident v => (AttributeBody.decode kind name v.value).notes
  | nonResident e =>
    (RunList.decode e.pairs).stopReason.toList.map (Note.runListStopped kind) ++
      if e.allocatedLength < e.actualLength
      then [Note.actualAboveAllocated kind e.actualLength.toNat e.allocatedLength.toNat] else []

end StoredContent

/-- An attribute as it is laid out. -/
structure StoredAttribute where
  code : UInt32
  /-- The declared length. -/
  length : UInt32
  flags : UInt16
  id : UInt16
  /-- The units of the name; an attribute without a name has none. -/
  name : List UInt16
  nameOffset : UInt16
  content : StoredContent
  /-- The bytes of the attribute before anything is written. -/
  filler : Bytes
  code_ne : code ≠ AttributeKind.endCode
  length_filler : filler.length = length.toNat
  header_le : content.headerSize ≤ length.toNat
  name_le : name.length ≤ 255
  name_fits : name = [] ∨
    content.headerSize ≤ nameOffset.toNat ∧ nameOffset.toNat + 2 * name.length ≤ length.toNat
  content_fits : content.Fits length.toNat
  apart : Placed.Apart ⟨nameOffset.toNat, Utf16.store name⟩ content.payload

namespace StoredAttribute

variable (a : StoredAttribute)

def shared : Bytes :=
  [ofNatLE 4 a.code.toNat, ofNatLE 4 a.length.toNat,
    [a.content.mark, UInt8.ofNat a.name.length], ofNatLE 2 a.nameOffset.toNat,
    ofNatLE 2 a.flags.toNat, ofNatLE 2 a.id.toNat].flatten

def head : Bytes := a.shared ++ a.content.head

def layout : List Placed :=
  [⟨0, a.head⟩, ⟨a.nameOffset.toNat, Utf16.store a.name⟩, a.content.payload]

def encode : Bytes := a.filler.writeAll a.layout

def kind : AttributeKind := AttributeKind.ofCode a.code

def text : Option String :=
  if a.name = [] then none else some (String.ofList (Utf16.chars a.name))

def header : AttributeHeader where
  kind := a.kind
  length := a.length
  nonResident := a.content.mark != 0
  nameLength := UInt8.ofNat a.name.length
  nameOffset := a.nameOffset
  flags := a.flags
  id := a.id
  name := a.text

def toAttribute : Attribute := ⟨a.header, a.content.residency, a.content.body a.kind a.text⟩

def notes : List Note := a.content.notes a.kind a.text

/-! ## The layout -/

theorem length_head : a.head.length = a.content.headerSize := by
  rw [head]
  cases a.content with
  | resident v => rfl
  | nonResident e => rfl

theorem size_le_headerSize : AttributeHeader.size ≤ a.content.headerSize := by
  cases a.content with
  | resident _ => exact (by decide : AttributeHeader.size ≤ ResidentForm.headerSize)
  | nonResident _ => exact (by decide : AttributeHeader.size ≤ NonResidentForm.headerSize)

theorem payload_between : a.content.payload.Between a.content.headerSize a.length.toNat := by
  have hfits := a.content_fits
  cases hcontent : a.content with
  | resident v =>
      rw [hcontent] at hfits
      exact hfits
  | nonResident e =>
      rw [hcontent] at hfits
      exact .inr ⟨hfits.1, hfits.2.1⟩

/-- Name and payload stand behind the header. -/
theorem headed : Headed a.filler a.head
    [⟨a.nameOffset.toNat, Utf16.store a.name⟩, a.content.payload] where
  head_le := by
    rw [a.length_head, a.length_filler]
    exact a.header_le
  between := by
    intro p hp
    rw [a.length_head, a.length_filler]
    simp only [List.mem_cons, List.not_mem_nil, or_false] at hp
    obtain rfl | rfl := hp
    · exact Placed.between_store a.name_fits
    · exact a.payload_between
  apart := List.pairwise_pair.mpr a.apart

theorem length_encode : a.encode.length = a.length.toNat :=
  a.headed.length_writeAll.trans a.length_filler

/-- The fields of the header are found where it stands. -/
theorem part_head {content : StoredContent} (h : a.content = content) {offset width : Nat}
    (hle : offset + width ≤ content.headerSize) :
    a.encode.part offset width = Bytes.part (a.shared ++ content.head) offset width := by
  subst h
  exact a.headed.part_head (by rwa [a.length_head])

/-! ## Reading it back -/

theorem part_shared {offset width : Nat} (h : offset + width ≤ AttributeHeader.size) :
    a.encode.part offset width = a.head.part offset width :=
  a.part_head rfl (Nat.le_trans h a.size_le_headerSize)

theorem u32_code : u32 a.encode 0 = a.code := u32_of_part (a.part_shared (by decide))

theorem u32_length : u32 a.encode 4 = a.length := u32_of_part (a.part_shared (by decide))

theorem decodeName_encode (kind : AttributeKind) :
    AttributeHeader.decodeName kind a.encode = .clean a.text := by
  have hunits : u8 a.encode 9 = UInt8.ofNat a.name.length := u8_of_part (a.part_shared (by decide))
  have hoffset : u16 a.encode 10 = a.nameOffset := u16_of_part (a.part_shared (by decide))
  have hcount : (UInt8.ofNat a.name.length).toNat = a.name.length :=
    UInt8.toNat_ofNat_of_lt' (Nat.lt_succ_of_le a.name_le)
  simp only [AttributeHeader.decodeName, hunits, hoffset, hcount]
  by_cases hname : a.name = []
  · rw [if_pos (by rw [hname]; rfl), text, if_pos hname]
  · have hstored : slice? a.encode a.nameOffset.toNat (2 * a.name.length) =
        some (Utf16.store a.name) := by
      rw [slice?_eq_some_iff, a.length_encode]
      refine ⟨(a.name_fits.resolve_left hname).2, ?_⟩
      have hpart := a.headed.part_of_mem List.mem_cons_self
      rwa [Utf16.length_store] at hpart
    rw [if_neg (by rwa [List.length_eq_zero_iff]), hstored]
    simp only [Utf16.decode, Utf16.units_store, text, if_neg hname]

/-- The shared header is read back from the bytes of an attribute. -/
theorem decodeHeader_encode : AttributeHeader.decode a.encode = .clean a.header := by
  have hmark : u8 a.encode 8 = a.content.mark := u8_of_part (a.part_shared (by decide))
  have hunits : u8 a.encode 9 = UInt8.ofNat a.name.length := u8_of_part (a.part_shared (by decide))
  have hoffset : u16 a.encode 10 = a.nameOffset := u16_of_part (a.part_shared (by decide))
  have hflags : u16 a.encode 12 = a.flags := u16_of_part (a.part_shared (by decide))
  have hid : u16 a.encode 14 = a.id := u16_of_part (a.part_shared (by decide))
  simp only [AttributeHeader.decode, a.decodeName_encode, a.u32_code, a.u32_length, hmark, hunits,
    hoffset, hflags, hid]
  rfl

theorem part_payload : a.encode.part a.content.payload.offset a.content.payload.bytes.length =
    a.content.payload.bytes :=
  a.headed.part_of_mem (List.mem_cons_of_mem _ List.mem_cons_self)

/-- A value is handed whole to the decoder of its kind. -/
theorem decodeResident_encode {v : StoredValue} (h : a.content = .resident v) :
    ResidentForm.decode a.header a.encode =
      ⟨(a.content.residency, a.content.body a.kind a.text), a.content.notes a.kind a.text⟩ := by
  have hfits := a.payload_between
  have hvalue := a.part_payload
  have hsize := a.header_le
  rw [h] at hfits hvalue hsize
  have hhead {offset width : Nat} (hle : offset + width ≤ ResidentForm.headerSize) :
      a.encode.part offset width =
        Bytes.part (a.shared ++ (StoredContent.resident v).head) offset width := a.part_head h hle
  have hinside : v.value.length ≤ a.length.toNat - v.offset.toNat := by
    obtain hempty | ⟨-, hle⟩ := hfits
    · rw [show v.value = [] from hempty]
      exact Nat.zero_le _
    · exact Nat.le_sub_of_add_le' hle
  have hlength : (UInt32.ofNat v.value.length).toNat = v.value.length :=
    UInt32.toNat_ofNat_of_lt'
      (Nat.lt_of_le_of_lt (Nat.le_trans hinside (Nat.sub_le _ _)) a.length.toNat_lt)
  have hvalueLength : u32 a.encode 0x10 = UInt32.ofNat v.value.length := by
    apply u32_of_part
    rw [hlength]
    exact hhead (by decide)
  have hoffset : u16 a.encode 0x14 = v.offset := u16_of_part (hhead (by decide))
  have hindexed : u8 a.encode 0x16 = v.indexed := u8_of_part (hhead (by decide))
  have hshort : ¬ a.encode.length < ResidentForm.headerSize := by
    rw [a.length_encode]
    exact Nat.not_lt.mpr hsize
  have htaken : (a.encode.drop v.offset.toNat).take v.value.length = v.value := hvalue
  have hcut : ¬ (a.encode.drop v.offset.toNat).length < v.value.length := by
    rw [List.length_drop, a.length_encode]
    exact Nat.not_lt.mpr hinside
  simp only [ResidentForm.decode, if_neg hshort, hvalueLength, hoffset, hindexed, hlength, htaken,
    if_neg hcut, h]
  rfl

/-- A run list is decoded from its own bytes. -/
theorem decodeRuns_encode {e : StoredExtent} (h : a.content = .nonResident e) :
    NonResidentForm.decodeRuns a.kind e.offset.toNat a.encode =
      ⟨RunList.decode e.pairs,
        (RunList.decode e.pairs).stopReason.toList.map (Note.runListStopped a.kind)⟩ := by
  have hfits := a.content_fits
  have hpairs := a.part_payload
  rw [h] at hfits hpairs
  obtain ⟨hbehind, hinside, hwhole⟩ := hfits
  have hsplit : a.encode.drop e.offset.toNat =
      e.pairs ++ a.encode.drop (e.offset.toNat + e.pairs.length) :=
    (drop_eq_part_append _ _ _).trans (congrArg (· ++ _) hpairs)
  have hruns : RunList.decode (a.encode.drop e.offset.toNat) = RunList.decode e.pairs := by
    cases hcut : RunList.isCut e.pairs with
    | false => rw [hsplit, RunList.decode_append_of_not_cut _ hcut]
    | true =>
        have hend : a.encode.length = e.offset.toNat + e.pairs.length := by
          rw [a.length_encode, hwhole hcut]
        rw [hsplit, List.drop_eq_nil_of_le (Nat.le_of_eq hend), List.append_nil]
  have hrange : NonResidentForm.headerSize ≤ e.offset.toNat ∧ e.offset.toNat ≤ a.encode.length := by
    rw [a.length_encode]
    exact ⟨hbehind, Nat.le_trans (Nat.le_add_right _ _) hinside⟩
  rw [NonResidentForm.decodeRuns, if_pos hrange, hruns]
  cases hreason : (RunList.decode e.pairs).stopReason with
  | none => simp only [hreason]; rfl
  | some reason => simp only [hreason]; rfl

/-- The form of content on the disk is read back, with what its run list gives notes for. -/
theorem decodeNonResident_encode {e : StoredExtent} (h : a.content = .nonResident e) :
    NonResidentForm.decode a.header a.encode =
      ⟨(a.content.residency, a.content.body a.kind a.text), a.content.notes a.kind a.text⟩ := by
  have hhead {offset width : Nat} (hle : offset + width ≤ NonResidentForm.headerSize) :
      a.encode.part offset width =
        Bytes.part (a.shared ++ (StoredContent.nonResident e).head) offset width := a.part_head h hle
  have hstart : u64 a.encode 0x10 = e.startVcn := u64_of_part (hhead (by decide))
  have hlast : u64 a.encode 0x18 = e.lastVcn := u64_of_part (hhead (by decide))
  have hoffset : u16 a.encode 0x20 = e.offset := u16_of_part (hhead (by decide))
  have hunit : u16 a.encode 0x22 = e.compressionUnit := u16_of_part (hhead (by decide))
  have hallocated : u64 a.encode 0x28 = e.allocatedLength := u64_of_part (hhead (by decide))
  have hactual : u64 a.encode 0x30 = e.actualLength := u64_of_part (hhead (by decide))
  have hinitialized : u64 a.encode 0x38 = e.initializedLength := u64_of_part (hhead (by decide))
  have hsize := a.header_le
  rw [h] at hsize
  have hshort : ¬ a.encode.length < NonResidentForm.headerSize := by
    rw [a.length_encode]
    exact Nat.not_lt.mpr hsize
  have hkind : a.header.kind = a.kind := rfl
  simp only [NonResidentForm.decode, if_neg hshort, hkind, hstart, hlast, hoffset, hunit, hallocated,
    hactual, hinitialized, a.decodeRuns_encode h, List.nil_append, h]
  rfl

/-- A stored attribute is read back. -/
theorem decodeWhole_encode : Attribute.decodeWhole a.encode = ⟨a.toAttribute, a.notes⟩ := by
  have hcontent : (if a.header.nonResident
      then NonResidentForm.decode a.header a.encode else ResidentForm.decode a.header a.encode) =
        ⟨(a.content.residency, a.content.body a.kind a.text), a.content.notes a.kind a.text⟩ := by
    cases h : a.content with
    | resident v =>
        have hmark : a.header.nonResident = false := by rw [header, h]; rfl
        rw [hmark, a.decodeResident_encode h, h]
        rfl
    | nonResident e =>
        have hmark : a.header.nonResident = true := by rw [header, h]; rfl
        rw [hmark, a.decodeNonResident_encode h, h]
        rfl
  simp only [Attribute.decodeWhole, a.decodeHeader_encode, Noted.clean, hcontent]
  rfl

end StoredAttribute

end Ntfs
