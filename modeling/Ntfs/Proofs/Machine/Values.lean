import Ntfs.Attribute.FileName
import Ntfs.Attribute.ListEntry
import Ntfs.Attribute.ObjectId
import Ntfs.Attribute.ReparsePoint
import Ntfs.Attribute.StandardInformation
import Ntfs.Attribute.VolumeInformation
import Ntfs.Proofs.Bytes.Layout
import Ntfs.Proofs.Machine.Fields

/-!
# Values on the machine

The values of attributes that have a fixed layout, with names behind it.  A field is promised when the
length of the value was compared with the end of it; the names are placed by lengths and offsets of 16
bits at most, so no sum on the way to them overflows.
-/

namespace Ntfs.Machine

open Work

variable {raw : Bytes}

/-! ## Names -/

/-- A name of some code units at a place, unless it has none; if it runs past the end, that is noted. -/
def storedName (raw : Bytes) (start units : Nat) (missing : Note) : Work (Option String) :=
  if units = 0 then pure none
  else do
    match part? raw start (← add start (← mul units 2)) with
    | some stored => return some (← text stored)
    | none => do
      tell missing
      return none

theorem storedName_eq {start units : Nat} (hstart : start < 0x10000) (hunits : units < 0x100)
    (missing : Note) :
    storedName raw start units missing = done (if units = 0 then .clean none
      else match Bytes.slice? raw start (2 * units) with
        | some stored => .clean (some (Utf16.decode stored))
        | none => .note none missing) := by
  have hword : 0x20000 ≤ maxWord := by decide
  rw [storedName]
  split
  · rfl
  · rw [mul_of_le (by omega), bind_eq_andThen, done_clean_andThen, add_of_le (by omega),
      bind_eq_andThen, done_clean_andThen, part?_eq_slice?, Nat.mul_comm]
    cases Bytes.slice? raw start (2 * units) with
    | none => rfl
    | some stored => simp only [text_eq, bind_eq_andThen, done_clean_andThen, pure_eq_done]

/-! ## Standard information -/

def standardInformation (raw : Bytes) : Work (Option StandardInformation) :=
  if raw.length < StandardInformation.minSize then do
    tell (.standardInformationShort raw.length)
    return none
  else do
    let stamps ← stamps raw 0x00
    let flags ← promised (← u32? raw 0x20)
    let maxVersions ← promised (← u32? raw 0x24)
    let version ← promised (← u32? raw 0x28)
    let classId ← promised (← u32? raw 0x2C)
    let ownerId ← u32? raw 0x30
    let securityId ← u32? raw 0x34
    let quotaCharged ← u64? raw 0x38
    let journalSequence ← u64? raw 0x40
    return some { stamps, flags, maxVersions, version, classId, ownerId, securityId, quotaCharged,
                  journalSequence }

theorem standardInformation_eq (hraw : raw.length ≤ maxSize) :
    standardInformation raw = done (StandardInformation.decode raw) := by
  rw [standardInformation, StandardInformation.decode]
  by_cases hshort : raw.length < StandardInformation.minSize
  · rw [if_pos hshort, if_pos hshort]
    rfl
  · rw [if_neg hshort, if_neg hshort]
    rw [StandardInformation.minSize] at hshort
    simp (disch := omega) only [stamps_eq hraw, u32?_eq hraw, u64?_eq hraw, promised_u32,
      bind_eq_andThen, done_clean_andThen]
    rfl

/-! ## Volume information -/

def volumeInformation (raw : Bytes) : Work (Option VolumeInformation) :=
  if raw.length < VolumeInformation.size then do
    tell (.volumeInformationShort raw.length)
    return none
  else do
    let major ← index raw 8
    let minor ← index raw 9
    let flags ← promised (← u16? raw 10)
    return some { major, minor, flags }

theorem volumeInformation_eq (hraw : raw.length ≤ maxSize) :
    volumeInformation raw = done (VolumeInformation.decode raw) := by
  rw [volumeInformation, VolumeInformation.decode]
  by_cases hshort : raw.length < VolumeInformation.size
  · rw [if_pos hshort, if_pos hshort]
    rfl
  · rw [if_neg hshort, if_neg hshort]
    rw [VolumeInformation.size] at hshort
    simp (disch := omega) only [index_of_lt, u16?_eq hraw, promised_u16, bind_eq_andThen,
      done_clean_andThen]
    rfl

/-! ## Object identifiers -/

/-- The written form of some bytes, one after the other, from a place on. -/
def hexBytes (raw : Bytes) (start : Nat) : Nat → Work String
  | 0 => pure ""
  | count + 1 => do
    let b ← index raw start
    return Hex.lower 2 b.toNat ++ (← hexBytes raw (start + 1) count)

def guid? (raw : Bytes) : Work (Option String) :=
  match part? raw 0 16 with
  | none => pure none
  | some raw => do
    let first ← promised (← u32? raw 0)
    let second ← promised (← u16? raw 4)
    let third ← promised (← u16? raw 6)
    return some (Hex.lower 8 first.toNat ++ "-" ++ Hex.lower 4 second.toNat ++ "-"
      ++ Hex.lower 4 third.toNat ++ "-" ++ (← hexBytes raw 8 2) ++ "-" ++ (← hexBytes raw 10 6))

def guidAt? (raw : Bytes) (offset : Nat) : Work (Option String) :=
  match part? raw offset raw.length with
  | none => pure none
  | some rest => guid? rest

def objectId (raw : Bytes) : Work (Option ObjectId) := do
  match ← guid? raw with
  | none => do
    tell (.objectIdShort raw.length)
    return none
  | some object => do
    let birthVolume ← guidAt? raw 16
    let birthObject ← guidAt? raw 32
    let domain ← guidAt? raw 48
    return some { object, birthVolume, birthObject, domain }

theorem hexBytes_eq {start count : Nat} (h : start + count ≤ raw.length) :
    hexBytes raw start count =
      done (.clean (String.join (((raw.drop start).take count).map fun x => Hex.lower 2 x.toNat))) := by
  induction count generalizing start with
  | zero => rfl
  | succ count ih =>
      have hstart : start < raw.length := by omega
      have hbyte : Bytes.u8 raw start = raw[start] := by
        rw [Bytes.u8, List.getD_eq_getElem?_getD, List.getElem?_eq_getElem hstart, Option.getD_some]
      rw [hexBytes, index_of_lt hstart, bind_eq_andThen, done_clean_andThen, ih (by omega), hbyte,
        bind_eq_andThen, done_clean_andThen, List.drop_eq_getElem_cons hstart, List.take_succ_cons,
        List.map_cons, String.join_cons]
      rfl

/-- The parts of an identifier are read from its sixteen bytes. -/
theorem guid?_eq (raw : Bytes) : guid? raw = done (.clean (Ntfs.guidAt? raw 0)) := by
  rw [guid?, part?_eq_slice? raw 0 16, Ntfs.guidAt?]
  cases hpart : Bytes.slice? raw 0 16 with
  | none => rfl
  | some part =>
      have hlength : part.length = 16 := by
        obtain ⟨hinside, rfl⟩ := Bytes.slice?_eq_some_iff.mp hpart
        exact Bytes.length_part hinside
      have hsize : part.length ≤ maxSize := by
        rw [hlength]
        decide
      simp (disch := omega) only [u16?_eq hsize, u32?_eq hsize, promised_u16, promised_u32,
        hexBytes_eq, bind_eq_andThen, done_clean_andThen]
      rfl

theorem guidAt?_eq (raw : Bytes) (offset : Nat) :
    guidAt? raw offset = done (.clean (Ntfs.guidAt? raw offset)) := by
  by_cases hinside : offset ≤ raw.length
  · have hlength : (raw.drop offset).length = raw.length - offset := List.length_drop
    have hslice : Bytes.slice? (raw.drop offset) 0 16 = Bytes.slice? raw offset 16 := by
      rw [← part?_eq_slice?, ← part?_eq_slice?]
      by_cases hroom : offset + 16 ≤ raw.length
      · rw [part?_of_le hroom, part?_of_le (by omega), List.drop_zero]
      · rw [part?_of_lt (by omega), part?_of_lt (by omega)]
    simp only [guidAt?, part?_to_end hinside, guid?_eq, Ntfs.guidAt?, hslice]
  · have hslice : Bytes.slice? raw offset 16 = none :=
      if_pos (Bytes.shorterThan_iff.mpr (by omega))
    simp only [guidAt?, part?_past_end (Nat.lt_of_not_le hinside), Ntfs.guidAt?, hslice]
    rfl

theorem objectId_eq (raw : Bytes) : objectId raw = done (ObjectId.decode raw) := by
  simp only [objectId, guid?_eq, guidAt?_eq, bind_eq_andThen, done_clean_andThen,
    ObjectId.decode]
  cases Ntfs.guidAt? raw 0 <;> rfl

/-! ## Reparse points -/

/-- The name whose offset and length stand at two places. -/
def reparseName? (raw : Bytes) (buffer offsetField lengthField : Nat) : Work (Option String) := do
  match ← u16? raw offsetField with
  | none => pure none
  | some offset => do
    match ← u16? raw lengthField with
    | none => pure none
    | some length => do
      let start ← add buffer offset.toNat
      match part? raw start (← add (← add buffer offset.toNat) length.toNat) with
      | none => pure none
      | some stored => return some (← text stored)

def reparsePoint (raw : Bytes) : Work (Option ReparsePoint) := do
  match ← u32? raw 0, ← u16? raw 4 with
  | some tag, some dataLength =>
    match ReparsePoint.nameBuffer? tag with
    | none => pure (some ⟨tag, dataLength, none, none⟩)
    | some buffer => do
      let substitute ← reparseName? raw buffer 8 10
      let print ← reparseName? raw buffer 12 14
      if substitute.isNone then tell .reparseTargetOutside
      return some ⟨tag, dataLength, substitute, print⟩
  | _, _ => do
    tell (.reparsePointShort raw.length)
    return none

theorem reparseName?_eq (hraw : raw.length ≤ maxSize) {buffer : Nat} (hbuffer : buffer ≤ 20)
    (offsetField lengthField : Nat) :
    reparseName? raw buffer offsetField lengthField =
      done (.clean (ReparsePoint.nameAt? raw buffer offsetField lengthField)) := by
  have hmax : maxSize + 0x100000 ≤ maxWord := by decide
  simp only [reparseName?, u16?_eq hraw, bind_eq_andThen, done_clean_andThen, ReparsePoint.nameAt?]
  cases Bytes.u16? raw offsetField with
  | none => rfl
  | some offset =>
      cases Bytes.u16? raw lengthField with
      | none => rfl
      | some length =>
          have hoffset := offset.toNat_lt
          have hlength := length.toNat_lt
          simp (disch := omega) only [add_of_le, part?_eq_slice?, done_clean_andThen, text_eq,
            Option.bind_eq_bind, Option.bind_some]
          cases Bytes.slice? raw (buffer + offset.toNat) length.toNat <;> rfl

theorem nameBuffer?_le {tag : UInt32} {buffer : Nat} (h : ReparsePoint.nameBuffer? tag = some buffer) :
    buffer ≤ 20 := by
  unfold ReparsePoint.nameBuffer? at h
  split at h
  · cases h
    decide
  · split at h
    · cases h
      decide
    · cases h

theorem reparsePoint_eq (hraw : raw.length ≤ maxSize) :
    reparsePoint raw = done (ReparsePoint.decode raw) := by
  simp only [reparsePoint, u32?_eq hraw, u16?_eq hraw, bind_eq_andThen, done_clean_andThen,
    ReparsePoint.decode]
  cases Bytes.u32? raw 0 with
  | none => rfl
  | some tag =>
      cases Bytes.u16? raw 4 with
      | none => rfl
      | some dataLength =>
          cases hbuffer : ReparsePoint.nameBuffer? tag with
          | none =>
              simp only [hbuffer]
              rfl
          | some buffer =>
              simp only [hbuffer, reparseName?_eq hraw (nameBuffer?_le hbuffer), done_clean_andThen]
              cases ReparsePoint.nameAt? raw buffer 8 10 <;> rfl

/-! ## File names -/

/-- Where the name of a file ends: a name that runs past the end of the value ends there. -/
def fileNameEnd (raw : Bytes) (units wanted : Nat) : Work Nat :=
  if raw.length < wanted then do
    tell (.fileNameCut units (← sub raw.length FileName.fixedSize))
    return raw.length
  else pure wanted

def fileName (raw : Bytes) : Work (Option FileName) :=
  if raw.length < FileName.fixedSize then do
    tell (.fileNameShort raw.length)
    return none
  else do
    let parent ← reference (← promised (← u64? raw 0x00))
    let units ← index raw 0x40
    let space ← index raw 0x41
    let wanted ← add FileName.fixedSize (← mul units.toNat 2)
    let name ← text (← slice raw FileName.fixedSize (← fileNameEnd raw units.toNat wanted))
    let stamps ← stamps raw 0x08
    let allocatedSize ← promised (← u64? raw 0x28)
    let realSize ← promised (← u64? raw 0x30)
    let flags ← promised (← u32? raw 0x38)
    let reparseTag ← promised (← u32? raw 0x3C)
    return some { parent, stamps, allocatedSize, realSize, flags, reparseTag, nameLength := units
                  space := Namespace.ofByte space, name }

theorem fileNameEnd_eq (hlong : FileName.fixedSize ≤ raw.length) (units wanted : Nat) :
    fileNameEnd raw units wanted =
      done ⟨min wanted raw.length, if raw.length < wanted
        then [.fileNameCut units (raw.length - FileName.fixedSize)] else []⟩ := by
  rw [fileNameEnd]
  by_cases hcut : raw.length < wanted
  · rw [if_pos hcut, if_pos hcut, Nat.min_eq_right (Nat.le_of_lt hcut), sub_of_le hlong]
    rfl
  · rw [if_neg hcut, if_neg hcut, Nat.min_eq_left (Nat.le_of_not_lt hcut)]
    rfl

/-- Decoding a file name on the machine never fails.  The name ends with its units or with the value. -/
theorem fileName_eq (hraw : raw.length ≤ maxSize) : fileName raw = done (FileName.decode raw) := by
  have hmax : maxSize ≤ maxWord := by decide
  have hword : 1000 ≤ maxWord := by decide
  rw [fileName, FileName.decode]
  simp only [Bytes.shorterThan_iff]
  by_cases hshort : raw.length < FileName.fixedSize
  · rw [if_pos hshort, if_pos hshort]
    rfl
  · rw [if_neg hshort, if_neg hshort]
    have hlong : FileName.fixedSize ≤ raw.length := Nat.le_of_not_lt hshort
    have hsize : FileName.fixedSize = 66 := rfl
    have hunits := (Bytes.u8 raw 0x40).toNat_lt
    simp (disch := omega) only [stamps_eq hraw, u32?_eq hraw, u64?_eq hraw, promised_u32,
      promised_u64, reference_eq, index_of_lt, mul_of_le, add_of_le, fileNameEnd_eq hlong,
      bind_eq_andThen, done_clean_andThen, text_eq]
    rw [Nat.mul_comm]
    exact done_andThen_of_clean (by rw [slice_min hlong, done_clean_andThen]; rfl)

end Ntfs.Machine
