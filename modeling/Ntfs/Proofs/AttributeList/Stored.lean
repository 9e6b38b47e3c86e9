import Ntfs.Attribute.ListEntry
import Ntfs.Proofs.Bytes.Window

/-!
# Stored attribute lists

An entry of an attribute list is laid out as 26 bytes of fixed fields and a name, which stands anywhere
behind them, with arbitrary bytes around it.  The entries stand back to back, each as long as it
declares.  `decodeAll_encode` says that such a list is read back whole: no entry is lost, moved or
misread because of the length of another one, of the place of a name or of what fills the gaps.
-/

namespace Ntfs

open Bytes

/-- An entry of an attribute list as it is laid out. -/
structure StoredListEntry where
  code : UInt32
  /-- The declared length. -/
  length : UInt16
  /-- The units of the name; an attribute without a name has none. -/
  name : List UInt16
  nameOffset : UInt8
  startVcn : UInt64
  holder : FileReference
  attributeId : UInt16
  /-- The bytes of the entry before anything is written. -/
  filler : Bytes
  length_filler : filler.length = length.toNat
  fixed_le : ListEntry.fixedSize ≤ length.toNat
  name_lt : name.length < 256
  name_fits : name = [] ∨
    ListEntry.fixedSize ≤ nameOffset.toNat ∧ nameOffset.toNat + 2 * name.length ≤ length.toNat
  holder_lt : holder.record.toNat < FileReference.recordBound

namespace StoredListEntry

variable (e : StoredListEntry)

def fixed : Bytes :=
  [ofNatLE 4 e.code.toNat, ofNatLE 2 e.length.toNat, [UInt8.ofNat e.name.length, e.nameOffset],
    ofNatLE 8 e.startVcn.toNat, ofNatLE 8 e.holder.toWord.toNat,
    ofNatLE 2 e.attributeId.toNat].flatten

def encode : Bytes := e.filler.writeAll [⟨0, e.fixed⟩, ⟨e.nameOffset.toNat, Utf16.store e.name⟩]

def text : Option String :=
  if e.name = [] then none else some (String.ofList (Utf16.chars e.name))

def toEntry : ListEntry where
  kind := AttributeKind.ofCode e.code
  length := e.length
  nameLength := UInt8.ofNat e.name.length
  nameOffset := e.nameOffset
  startVcn := e.startVcn
  holder := e.holder
  attributeId := e.attributeId
  name := e.text

/-! ## The layout -/

theorem length_fixed : e.fixed.length = ListEntry.fixedSize := rfl

theorem headed : Headed e.filler e.fixed [⟨e.nameOffset.toNat, Utf16.store e.name⟩] where
  head_le := by
    rw [e.length_fixed, e.length_filler]
    exact e.fixed_le
  between := by
    intro p hp
    rw [List.mem_singleton.mp hp, e.length_fixed, e.length_filler]
    exact Placed.between_store e.name_fits
  apart := List.pairwise_singleton _ _

theorem length_encode : e.encode.length = e.length.toNat :=
  e.headed.length_writeAll.trans e.length_filler

theorem part_name : e.encode.part e.nameOffset.toNat (2 * e.name.length) = Utf16.store e.name := by
  have hpart := e.headed.part_of_mem List.mem_cons_self
  rwa [Utf16.length_store] at hpart

/-! ## Reading it back -/

section Reading

variable {e} {list : Buffer} {offset : Nat} {after : Bytes}

theorem window_fixed (h : list.toList.drop offset = e.encode ++ after) :
    list.window offset ListEntry.fixedSize = e.fixed := by
  have hle : ListEntry.fixedSize ≤ e.encode.length := by
    rw [e.length_encode]
    exact e.fixed_le
  rw [Buffer.window_front_of_item h hle, ← e.length_fixed]
  exact e.headed.take_writeAll

theorem decodeName_encode (h : list.toList.drop offset = e.encode ++ after) :
    ListEntry.decodeName list offset e.fixed = .clean e.text := by
  have hunits : u8 e.fixed 6 = UInt8.ofNat e.name.length := u8_of_part rfl
  have hoffset : u8 e.fixed 7 = e.nameOffset := u8_of_part rfl
  have hcount : (UInt8.ofNat e.name.length).toNat = e.name.length :=
    UInt8.toNat_ofNat_of_lt' e.name_lt
  simp only [ListEntry.decodeName, hunits, hoffset, hcount]
  by_cases hname : e.name = []
  · rw [if_pos (by rw [hname]; rfl), text, if_pos hname]
  · have hpos : 0 < e.name.length := List.length_pos_iff.mpr hname
    have hinside : e.nameOffset.toNat + 2 * e.name.length ≤ e.encode.length := by
      rw [e.length_encode]
      exact (e.name_fits.resolve_left hname).2
    have hstored : list.window (offset + e.nameOffset.toNat) (2 * e.name.length) =
        Utf16.store e.name := by
      rw [Buffer.window_of_item h hinside, e.part_name]
    rw [if_neg (by omega), hstored, if_pos (Utf16.length_store _), Utf16.decode,
      Utf16.units_store, text, if_neg hname]

/-- An entry is read back wherever its bytes stand in a list. -/
theorem decodeAt_encode (h : list.toList.drop offset = e.encode ++ after) :
    ListEntry.decodeAt list offset e.fixed = .clean e.toEntry := by
  have hcode : u32 e.fixed 0 = e.code := u32_of_part rfl
  have hlength : u16 e.fixed 4 = e.length := u16_of_part rfl
  have hunits : u8 e.fixed 6 = UInt8.ofNat e.name.length := u8_of_part rfl
  have hoffset : u8 e.fixed 7 = e.nameOffset := u8_of_part rfl
  have hstart : u64 e.fixed 8 = e.startVcn := u64_of_part rfl
  have hholder : u64 e.fixed 16 = e.holder.toWord := u64_of_part rfl
  have hid : u16 e.fixed 24 = e.attributeId := u16_of_part rfl
  rw [ListEntry.decodeAt, decodeName_encode h, hcode, hlength, hunits, hoffset, hstart, hholder, hid,
    FileReference.ofWord_toWord e.holder_lt]
  rfl

/-- Where an entry stands, it is read, and the walk goes on behind it. -/
theorem decodeFrom_encode (h : list.toList.drop offset = e.encode ++ after) :
    ListEntry.decodeFrom list offset =
      (Noted.clean e.toEntry).cons (ListEntry.decodeFrom list (offset + e.length.toNat)) := by
  have hcode : u32 e.fixed 0 = e.code := u32_of_part rfl
  have hlength : u16 e.fixed 4 = e.length := u16_of_part rfl
  have hfixed : 26 ≤ e.length.toNat := e.fixed_le
  have hsize := congrArg List.length h
  rw [List.length_drop, List.length_append, e.length_encode, Buffer.length_toList] at hsize
  have hinside : ¬ list.size ≤ offset := by omega
  have hwhole : ¬ e.fixed.length < ListEntry.minSize := by
    rw [e.length_fixed]
    decide
  have hpadding : ¬ (e.code = 0 ∧ e.length.toNat = 0) := fun hzero => by omega
  have hlong : ¬ e.length.toNat < ListEntry.minSize := by
    rw [ListEntry.minSize]
    omega
  rw [ListEntry.decodeFrom, window_fixed h]
  simp only [hcode, hlength, decodeAt_encode h]
  rw [if_neg hinside, if_neg hwhole, if_neg hpadding, if_neg hlong]

/-- Entries back to back are read back in their order. -/
theorem decodeFrom_encodeAll {entries : List StoredListEntry}
    (h : list.toList.drop offset = entries.flatMap encode) :
    ListEntry.decodeFrom list offset = .clean (entries.map toEntry) := by
  induction entries generalizing offset with
  | nil =>
      have hend : list.size ≤ offset := by
        rw [← Buffer.length_toList]
        exact List.drop_eq_nil_iff.mp h
      rw [ListEntry.decodeFrom, if_pos hend]
      rfl
  | cons e rest ih =>
      rw [List.flatMap_cons] at h
      have hrest : list.toList.drop (offset + e.length.toNat) = rest.flatMap encode := by
        rw [← List.drop_drop, h, ← e.length_encode, List.drop_left]
      rw [decodeFrom_encode h, ih hrest]
      rfl

end Reading

/-- Entries that stand back to back come back in order, each with all its fields and the text of its
name, and there is nothing to note. -/
theorem decodeAll_encode (entries : List StoredListEntry) :
    ListEntry.decodeAll (.ofList (entries.flatMap encode)) = .clean (entries.map toEntry) := by
  apply decodeFrom_encodeAll
  rw [Buffer.toList_ofList, List.drop_zero]

/-- The entry of an attribute without a name. -/
def unnamed : StoredListEntry where
  code := 0x10
  length := 26
  name := []
  nameOffset := 0
  startVcn := 0
  holder := ⟨30, 1⟩
  attributeId := 2
  filler := List.replicate 26 0
  length_filler := List.length_replicate
  fixed_le := by decide
  name_lt := by decide
  name_fits := .inl rfl
  holder_lt := by decide

/-- The entry of a part of a stream.  There are gaps before and behind its name, which ends in half of a
surrogate pair. -/
def gapped : StoredListEntry where
  code := 0x80
  length := 40
  name := [0x61, 0xD800]
  nameOffset := 30
  startVcn := 0x100
  holder := ⟨32, 7⟩
  attributeId := 5
  filler := List.replicate 40 0xEE
  length_filler := List.length_replicate
  fixed_le := by decide
  name_lt := by decide
  name_fits := .inr ⟨by decide, by decide⟩
  holder_lt := by decide

/-- An entry with gaps around a name that ends in half of a pair, and one without a name. -/
theorem decodeAll_encode_gapped :
    gapped.encode =
      [0x80, 0, 0, 0, 40, 0, 2, 30, 0, 1, 0, 0, 0, 0, 0, 0, 32, 0, 0, 0, 0, 0, 7, 0, 5, 0,
        0xEE, 0xEE, 0xEE, 0xEE, 0x61, 0, 0, 0xD8, 0xEE, 0xEE, 0xEE, 0xEE, 0xEE, 0xEE] ∧
    ListEntry.decodeAll (.ofList (unnamed.encode ++ gapped.encode)) = .clean
      [⟨.standardInformation, 26, 0, 0, 0, ⟨30, 1⟩, 2, none⟩,
        ⟨.data, 40, 2, 30, 0x100, ⟨32, 7⟩, 5, some "a\uFFFD"⟩] := by
  refine ⟨by decide, ?_⟩
  have hread := decodeAll_encode [unnamed, gapped]
  rw [List.flatMap_cons, List.flatMap_singleton] at hread
  rw [hread]
  rfl

end StoredListEntry

end Ntfs
