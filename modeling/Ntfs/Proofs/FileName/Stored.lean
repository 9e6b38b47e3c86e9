import Ntfs.Attribute.FileName
import Ntfs.Proofs.Bytes.Layout
import Ntfs.Proofs.Text.Utf16

/-!
# Stored file names

The value of a file name attribute is laid out as 66 bytes of fixed fields, the number of code units of
the name among them, and the units of the name.  `decode_encode_cut` says how it is read: whole, it comes
back in every field, whatever follows it; cut inside the name, only the name changes, to the text of the
units that are left whole; cut in front of the name, nothing is read.
-/

namespace Ntfs

namespace Utf16

theorem store_cons (u : UInt16) (us : List UInt16) :
    store (u :: us) = UInt8.ofNat u.toNat :: UInt8.ofNat (u.toNat / 256) :: store us := rfl

/-- Units that are cut keep those that are whole. -/
theorem units_take_store (us : List UInt16) (m : Nat) :
    units ((store us).take m) = us.take (m / 2) := by
  induction us generalizing m with
  | nil => simp [store, units]
  | cons u us ih =>
      rcases m with _ | _ | m
      · rfl
      · rfl
      · have hfirst := units_store (u :: us)
        rw [store_cons, units] at hfirst
        rw [store_cons, List.take_succ_cons, List.take_succ_cons, units, ih,
          (List.cons.inj hfirst).1, show (m + 2) / 2 = m / 2 + 1 by omega, List.take_succ_cons]

end Utf16

open Bytes

/-- The value of a file name attribute as it is laid out. -/
structure StoredFileName where
  parent : FileReference
  /-- Four file times. -/
  created : UInt64
  modified : UInt64
  recordModified : UInt64
  accessed : UInt64
  allocatedSize : UInt64
  realSize : UInt64
  flags : UInt32
  reparseTag : UInt32
  space : UInt8
  units : List UInt16
  parent_lt : parent.record.toNat < FileReference.recordBound
  units_lt : units.length < 256

namespace StoredFileName

variable (e : StoredFileName)

def fixed : Bytes :=
  [ofNatLE 8 e.parent.toWord.toNat, ofNatLE 8 e.created.toNat, ofNatLE 8 e.modified.toNat,
    ofNatLE 8 e.recordModified.toNat, ofNatLE 8 e.accessed.toNat, ofNatLE 8 e.allocatedSize.toNat,
    ofNatLE 8 e.realSize.toNat, ofNatLE 4 e.flags.toNat, ofNatLE 4 e.reparseTag.toNat,
    [UInt8.ofNat e.units.length, e.space]].flatten

def encode : Bytes := e.fixed ++ Utf16.store e.units

/-- The decoded value, when its units are read as a name. -/
def toFileName (name : String) : FileName where
  parent := e.parent
  stamps := ⟨Instant.ofFiletime e.created, Instant.ofFiletime e.modified,
    Instant.ofFiletime e.recordModified, Instant.ofFiletime e.accessed⟩
  allocatedSize := e.allocatedSize
  realSize := e.realSize
  flags := e.flags
  reparseTag := e.reparseTag
  nameLength := UInt8.ofNat e.units.length
  space := Namespace.ofByte e.space
  name := name

theorem length_fixed : e.fixed.length = FileName.fixedSize := rfl

/-- The fixed fields are read in front of any bytes; the name is what stands behind them, as far as its
units go. -/
theorem decode_fixed_append (rest : Bytes) :
    FileName.decode (e.fixed ++ rest) =
      ⟨some (e.toFileName (Utf16.decode (rest.take (2 * e.units.length)))),
        if rest.length < 2 * e.units.length then [.fileNameCut e.units.length rest.length] else []⟩ := by
  have hfixed : e.fixed.length = 66 := e.length_fixed
  have hpart (offset length : Nat) (h : offset + length ≤ 66) :
      (e.fixed ++ rest).part offset length = e.fixed.part offset length := part_append h rest
  have h64 (offset : Nat) (v : UInt64) (h : offset + 8 ≤ 66)
      (hstored : e.fixed.part offset 8 = ofNatLE 8 v.toNat) : u64 (e.fixed ++ rest) offset = v :=
    u64_of_part ((hpart offset 8 h).trans hstored)
  have h32 (offset : Nat) (v : UInt32) (h : offset + 4 ≤ 66)
      (hstored : e.fixed.part offset 4 = ofNatLE 4 v.toNat) : u32 (e.fixed ++ rest) offset = v :=
    u32_of_part ((hpart offset 4 h).trans hstored)
  have hparent := h64 0x00 e.parent.toWord (by decide) rfl
  have hcreated := h64 0x08 e.created (by decide) rfl
  have hmodified := h64 0x10 e.modified (by decide) rfl
  have hrecordModified := h64 0x18 e.recordModified (by decide) rfl
  have haccessed := h64 0x20 e.accessed (by decide) rfl
  have hallocated := h64 0x28 e.allocatedSize (by decide) rfl
  have hreal := h64 0x30 e.realSize (by decide) rfl
  have hflags := h32 0x38 e.flags (by decide) rfl
  have htag := h32 0x3C e.reparseTag (by decide) rfl
  have hunits : u8 (e.fixed ++ rest) 0x40 = UInt8.ofNat e.units.length :=
    u8_of_part (hpart 0x40 1 (by decide))
  have hspace : u8 (e.fixed ++ rest) 0x41 = e.space := u8_of_part (hpart 0x41 1 (by decide))
  have hcount : (UInt8.ofNat e.units.length).toNat = e.units.length :=
    UInt8.toNat_ofNat_of_lt' e.units_lt
  have hlength : (e.fixed ++ rest).length = FileName.fixedSize + rest.length := by
    rw [List.length_append, e.length_fixed]
  have hname : (e.fixed ++ rest).drop FileName.fixedSize = rest := by
    rw [← e.length_fixed, List.drop_left]
  have hwhole : ¬ FileName.fixedSize + rest.length < FileName.fixedSize := by omega
  simp only [FileName.decode, Stamps.ofBytes, Bytes.shorterThan_iff, hlength, hwhole, if_false, hname,
    hparent, hcreated, hmodified, hrecordModified, haccessed, hallocated, hreal, hflags, htag, hunits,
    hspace, hcount, FileReference.ofWord_toWord e.parent_lt, Nat.add_lt_add_iff_left,
    Nat.add_sub_cancel_left]
  rfl

/-- A stored value comes back in every field, and its name is the text that its units stand for, whatever
follows.  Cut inside the name it differs in nothing but the name, which is the text of the units that are
left whole, and the cut is noted.  Cut in front of the name it gives no value, and that is noted. -/
theorem decode_encode_cut (tail : Bytes) :
    (∃ cs, Utf16.Reads e.units cs ∧
      FileName.decode (e.encode ++ tail) = .clean (some (e.toFileName (String.ofList cs)))) ∧
    (∀ m, m < 2 * e.units.length → ∃ cs, Utf16.Reads (e.units.take (m / 2)) cs ∧
      FileName.decode ((e.encode ++ tail).take (FileName.fixedSize + m)) =
        .note (some (e.toFileName (String.ofList cs))) (.fileNameCut e.units.length m)) ∧
    ∀ n, n < FileName.fixedSize →
      FileName.decode ((e.encode ++ tail).take n) = .note none (.fileNameShort n) := by
  have hstored : (Utf16.store e.units).length = 2 * e.units.length := Utf16.length_store _
  rw [encode, List.append_assoc]
  refine ⟨⟨_, Utf16.reads_chars _, ?_⟩, fun m hm => ⟨_, Utf16.reads_chars _, ?_⟩, fun n hn => ?_⟩
  · have hwhole : ¬ (Utf16.store e.units ++ tail).length < 2 * e.units.length := by
      rw [List.length_append, hstored]
      omega
    rw [decode_fixed_append, if_neg hwhole, ← hstored, List.take_left, Utf16.decode,
      Utf16.units_store]
    rfl
  · have hcut : (e.fixed ++ (Utf16.store e.units ++ tail)).take (FileName.fixedSize + m) =
        e.fixed ++ (Utf16.store e.units).take m := by
      rw [← e.length_fixed, List.take_length_add_append,
        List.take_append_of_le_length (by rw [hstored]; omega)]
    have hlength : ((Utf16.store e.units).take m).length = m := by
      rw [List.length_take, hstored]
      omega
    rw [hcut, decode_fixed_append, hlength, if_pos hm,
      List.take_of_length_le (by rw [hlength]; omega), Utf16.decode, Utf16.units_take_store]
    rfl
  · have hlength : ((e.fixed ++ (Utf16.store e.units ++ tail)).take n).length = n := by
      rw [List.length_take, List.length_append, e.length_fixed]
      omega
    rw [FileName.decode, if_pos (by rw [Bytes.shorterThan_iff, hlength]; exact hn), hlength]

/-- The name has half of a surrogate pair at its start and a whole one at its end. -/
def paired : StoredFileName where
  parent := ⟨0xFFFFFFFFFFFF, 0xFFFF⟩
  created := 0
  modified := 116444736000000000
  recordModified := 1
  accessed := 0xFFFFFFFFFFFFFFFF
  allocatedSize := 0x2000
  realSize := 0x1001
  flags := 0x20
  reparseTag := 0xA000000C
  space := 7
  units := [0xDC00, 0x61, 0xD83D, 0xDE00]
  parent_lt := by decide
  units_lt := by decide

/-- The last byte of the pair is cut off. -/
theorem decode_encode_cut_paired :
    7 < 2 * paired.units.length ∧ 65 < FileName.fixedSize ∧
    paired.encode.drop 56 =
      [0x20, 0, 0, 0, 0x0C, 0, 0, 0xA0, 4, 7, 0, 0xDC, 0x61, 0, 0x3D, 0xD8, 0, 0xDE] ∧
    FileName.decode (paired.encode ++ [0x62, 0]) = .clean (some
      ⟨⟨0xFFFFFFFFFFFF, 0xFFFF⟩,
        ⟨none, some ⟨0, 0⟩, some ⟨-11644473600, 0⟩, some ⟨1833029933770, 955161000⟩⟩,
        0x2000, 0x1001, 0x20, 0xA000000C, 4, .other 7, "\uFFFDa😀"⟩) ∧
    (FileName.decode ((paired.encode ++ [0x62, 0]).take (FileName.fixedSize + 7))).value.map (·.name) =
      some "\uFFFDa\uFFFD" ∧
    FileName.decode ((paired.encode ++ [0x62, 0]).take 65) = .note none (.fileNameShort 65) := by
  obtain ⟨⟨whole, hwhole, hdecoded⟩, hcut, hshort⟩ := paired.decode_encode_cut [0x62, 0]
  have hinside : 7 < 2 * paired.units.length := by decide
  obtain ⟨front, hfront, hpartial⟩ := hcut 7 hinside
  refine ⟨hinside, by decide, by decide, ?_, ?_, hshort 65 (by decide)⟩
  · rw [hdecoded, hwhole.eq_chars]
    decide +kernel
  · rw [hpartial, hfront.eq_chars]
    decide +kernel

end StoredFileName

end Ntfs
