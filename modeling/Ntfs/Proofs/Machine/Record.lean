import Ntfs.Proofs.Machine.Blocks
import Ntfs.Proofs.Machine.RunList
import Ntfs.Record.Parse

/-!
# Records on the machine

`parse` reads a file record with checked operations alone.  Whatever the bytes are, every operation is
done and the record is the one that the library reads.  No more than 1024 bytes are looked at, so every
place in them, moved on by a 32-bit length, is still a word.
-/

namespace Ntfs.Machine

open Work

variable {raw buf : Bytes}

/-- Take a note if there is a reason for it. -/
def tellIf (reason : Prop) [Decidable reason] (n : Note) : Work Unit :=
  if reason then tell n else pure ()

theorem tellIf_eq (reason : Prop) [Decidable reason] (n : Note) :
    tellIf reason n = done ⟨(), if reason then [n] else []⟩ := by
  rw [tellIf]
  split <;> rfl

/-! ## Resident content -/

def attributeBody (kind : AttributeKind) (name : Option String) (value : Bytes) :
    Work AttributeBody :=
  let orUndecoded {α : Type} (wrap : α → AttributeBody) (x : Work (Option α)) : Work AttributeBody := do
    return ((← x).map wrap).getD .undecoded
  match kind with
  | .standardInformation => orUndecoded .standardInformation (standardInformation value)
  | .attributeList => do return .attributeList (← listEntries value)
  | .fileName => orUndecoded .fileName (fileName value)
  | .objectId => orUndecoded .objectId (objectId value)
  | .volumeName => do return .volumeName (← text value)
  | .volumeInformation => orUndecoded .volumeInformation (volumeInformation value)
  | .data => pure (.data value)
  | .indexRoot => orUndecoded .indexRoot (indexRoot value)
  | .indexAllocation => do
    return .indexAllocation (← indexAllocation value none (name == some directoryIndexName))
  | .bitmap => pure (.bitmap ⟨.ofList value⟩)
  | .reparsePoint => orUndecoded .reparsePoint (reparsePoint value)
  | .securityDescriptor | .extendedInformation | .extended | .propertySet
  | .loggedUtilityStream => pure (.raw value)
  | .endMark | .other _ => do
    tell (.unknownKind kind.code)
    return .undecoded

def residentContent (header : AttributeHeader) (form : ResidentForm) (raw : Bytes) :
    Work (Residency × AttributeBody) := do
  let start := min form.valueOffset.toNat raw.length
  let wanted := saturatingAdd start form.valueLength.toNat
  let available ← sub raw.length start
  tellIf (raw.length < wanted) (.valueCut header.kind form.valueLength.toNat available)
  let value ← slice raw start (min wanted raw.length)
  let body ← attributeBody header.kind header.name value
  return (.resident form, body)

def resident (header : AttributeHeader) (raw : Bytes) : Work (Residency × AttributeBody) := do
  let valueLength ← u32 raw 0x10
  let valueOffset ← u16 raw 0x14
  let form : ResidentForm := { valueLength, valueOffset, indexed := raw[0x16]?.getD 0 }
  if raw.length < ResidentForm.headerSize then do
    tell (.residentHeaderCut header.kind)
    return (.resident form, .undecoded)
  else residentContent header form raw

/-- A value is decoded on the machine as the library decodes it, whatever its kind. -/
theorem attributeBody_eq (hraw : raw.length ≤ maxSize) (kind : AttributeKind) (name : Option String) :
    attributeBody kind name raw = done (AttributeBody.decode kind name raw) := by
  cases kind <;>
    simp only [attributeBody, AttributeBody.decode, standardInformation_eq hraw, fileName_eq hraw,
      objectId_eq, text_eq, volumeInformation_eq hraw, indexRoot_eq hraw, reparsePoint_eq hraw,
      indexAllocation_eq _ hraw, listEntries, listEntriesFrom_eq hraw, bind_eq_andThen, pure_eq_done,
      done_andThen_pure, ListEntry.decodeAll] <;>
    rfl

/-- Content that is cut out between two places inside is what stands at its declared place. -/
theorem resident_eq (hraw : raw.length ≤ maxSize) (header : AttributeHeader) :
    resident header raw = done (ResidentForm.decode header raw) := by
  have hindexed : raw[0x16]?.getD 0 = Bytes.u8 raw 0x16 := by
    rw [Bytes.u8, List.getD_eq_getElem?_getD]
  rw [ResidentForm.decode]
  simp only [resident, u32_eq hraw, u16_eq hraw, hindexed, bind_eq_andThen, done_clean_andThen]
  split
  · rfl
  · generalize Bytes.u32 raw 0x10 = valueLength
    generalize Bytes.u16 raw 0x14 = valueOffset
    generalize Bytes.u8 raw 0x16 = indexed
    have hmax : maxSize + 0x100000000 ≤ maxWord := by decide
    have hwanted_lt := valueLength.toNat_lt
    have hstart : raw.drop (min valueOffset.toNat raw.length) = raw.drop valueOffset.toNat := by
      rw [List.drop_eq_drop_iff]
      omega
    have hinside := Nat.min_le_right valueOffset.toNat raw.length
    simp only [residentContent, ← hstart]
    generalize min valueOffset.toNat raw.length = start at *
    have hsum : saturatingAdd start valueLength.toNat = start + valueLength.toNat :=
      Nat.min_eq_left (by omega)
    have hlength : ((raw.drop start).take valueLength.toNat).length ≤ maxSize := by
      rw [List.length_take, List.length_drop]
      omega
    have hbelow : raw.length < start + valueLength.toNat ↔ raw.length - start < valueLength.toNat := by
      omega
    simp only [hsum, sub_of_le hinside, tellIf_eq, slice_min hinside, attributeBody_eq hlength,
      hbelow,
      List.length_drop, bind_eq_andThen, done_clean_andThen, pure_eq_done, done_andThen_pure,
      done_andThen_done]
    rfl

/-! ## Content on the disk -/

/-- Read the run list of an attribute, which must not start inside the header. -/
def runsAt (kind : AttributeKind) (raw : Bytes) (offset : Nat) : Work RunList :=
  match (part? raw offset raw.length).filter fun _ => NonResidentForm.headerSize ≤ offset with
  | some stored => do
    let runs ← runList stored
    match runs.stopReason with
    | none => return runs
    | some reason => do
      tell (.runListStopped kind reason)
      return runs
  | none => do
    tell (.runListOutside kind offset)
    return .empty

def nonResident (header : AttributeHeader) (raw : Bytes) : Work (Residency × AttributeBody) := do
  let runListOffset ← u16 raw 0x20
  let startVcn ← u64 raw 0x10
  let lastVcn ← u64 raw 0x18
  let compressionUnit ← u16 raw 0x22
  let allocatedLength ← u64 raw 0x28
  let actualLength ← u64 raw 0x30
  let initializedLength ← u64 raw 0x38
  tellIf (raw.length < NonResidentForm.headerSize) (.nonResidentHeaderCut header.kind)
  let runList ← runsAt header.kind raw runListOffset.toNat
  tellIf (allocatedLength < actualLength)
    (.actualAboveAllocated header.kind actualLength.toNat allocatedLength.toNat)
  return (.nonResident { startVcn, lastVcn, runListOffset, compressionUnit, allocatedLength
                         actualLength, initializedLength, runList },
    AttributeBody.placeholder header.kind)

theorem runsAt_eq (hraw : raw.length ≤ maxSize) (kind : AttributeKind) (offset : Nat) :
    runsAt kind raw offset = done (NonResidentForm.decodeRuns kind offset raw) := by
  rw [runsAt, NonResidentForm.decodeRuns]
  by_cases hinside : NonResidentForm.headerSize ≤ offset ∧ offset ≤ raw.length
  · have hstored : (raw.drop offset).length ≤ maxSize := by
      rw [List.length_drop]
      omega
    rw [if_pos hinside, part?_to_end hinside.2, Option.filter_some, if_pos (decide_eq_true hinside.1)]
    simp only [runList_eq hstored, bind_eq_andThen, done_clean_andThen]
    cases (RunList.decode (raw.drop offset)).stopReason <;> rfl
  · have hnone : ((part? raw offset raw.length).filter fun _ => NonResidentForm.headerSize ≤ offset) =
        none := by
      by_cases hpast : raw.length < offset
      · rw [part?_past_end hpast, Option.filter_none]
      · rw [part?_to_end (Nat.le_of_not_lt hpast), Option.filter_some, if_neg]
        exact fun h => hinside ⟨of_decide_eq_true h, Nat.le_of_not_lt hpast⟩
    rw [if_neg hinside, hnone]
    rfl

theorem nonResident_eq (hraw : raw.length ≤ maxSize) (header : AttributeHeader) :
    nonResident header raw = done (NonResidentForm.decode header raw) := by
  simp only [nonResident, u16_eq hraw, u64_eq hraw, tellIf_eq, runsAt_eq hraw, bind_eq_andThen,
    pure_eq_done, done_andThen_pure, done_andThen_done, NonResidentForm.decode,
    List.append_assoc]
  rfl

/-! ## Attributes -/

def attributeHeader (raw : Bytes) : Work AttributeHeader := do
  let kind := AttributeKind.ofCode (← promised (← u32? raw 0))
  let nameLength ← index raw 9
  let nameOffset ← promised (← u16? raw 10)
  let name ← storedName raw nameOffset.toNat nameLength.toNat (.attributeNameOutside kind)
  let length ← promised (← u32? raw 4)
  let form ← index raw 8
  let flags ← promised (← u16? raw 12)
  let id ← promised (← u16? raw 14)
  return { kind, length, nonResident := form != 0, nameLength, nameOffset, flags, id, name }

def attributeContent (header : AttributeHeader) (raw : Bytes) : Work (Residency × AttributeBody) :=
  if header.nonResident then nonResident header raw else resident header raw

/-- Decode the attribute that takes exactly the given bytes. -/
def attributeOf (raw : Bytes) : Work (Option Attribute) :=
  if raw.length < AttributeHeader.size then do
    tell (.attributeCut raw.length)
    return none
  else do
    let header ← attributeHeader raw
    let (residency, body) ← attributeContent header raw
    return some { header, residency, body }

theorem attributeHeader_eq (hraw : raw.length ≤ maxSize) (hlong : AttributeHeader.size ≤ raw.length) :
    attributeHeader raw = done (AttributeHeader.decode raw) := by
  have hsize : 16 ≤ raw.length := hlong
  simp (disch := omega) only [attributeHeader, u16?_eq hraw, u32?_eq hraw, promised_u16, promised_u32,
    index_of_lt, storedName_eq (UInt16.toNat_lt _) (UInt8.toNat_lt _), bind_eq_andThen,
    done_clean_andThen]
  exact done_andThen_pure _ _

theorem attributeContent_eq (hraw : raw.length ≤ maxSize) (header : AttributeHeader) :
    attributeContent header raw = done (if header.nonResident
      then NonResidentForm.decode header raw else ResidentForm.decode header raw) := by
  rw [attributeContent]
  split
  · exact nonResident_eq hraw header
  · exact resident_eq hraw header

/-- An attribute is decoded on the machine as the library decodes it. -/
theorem attributeOf_eq (hraw : raw.length ≤ maxSize) :
    attributeOf raw = done (Attribute.decode raw) := by
  rw [attributeOf, Attribute.decode]
  split
  · rfl
  · rename_i hlong
    simp only [attributeHeader_eq hraw (Nat.le_of_not_lt hlong), attributeContent_eq hraw,
      bind_eq_andThen, pure_eq_done, done_andThen_pure, done_andThen_done]
    rfl

/-! ## The walk over the attributes -/

/-- Where an attribute ends: one that runs past the end of the record ends there. -/
def attributeEnd (size : Nat) {offset declared : Nat} (hoffset : offset < size)
    (hdeclared : 0 < declared) : Work { last : Nat // offset < last } :=
  match hsum : checkedAdd? offset declared with
  | some last =>
    if last ≤ size then pure ⟨last, by have := eq_add_of_checkedAdd? hsum; omega⟩
    else do
      tell (.attributeOverrun offset declared (← sub size offset))
      return ⟨size, hoffset⟩
  | none => do
    tell (.attributeOverrun offset declared (← sub size offset))
    return ⟨size, hoffset⟩

/-- The attribute declared at `offset`, and where the next one stands. -/
def attributeAt (buf : Bytes) {size offset declared : Nat} (hoffset : offset < size)
    (hdeclared : 0 < declared) : Work (Option Attribute × { next : Nat // offset < next }) := do
  let last ← attributeEnd size hoffset hdeclared
  let front ← attributeOf (← slice buf offset last.val)
  return (front, last)

/-- The attributes from `offset` on in a record of `size` bytes. -/
def attributesFrom (buf : Bytes) (size offset : Nat) : Work (List Attribute) :=
  if hoffset : offset < size then do
    match ← u32? buf offset with
    | none => do
      tell (.streamEnds offset)
      return []
    | some code =>
      if code = AttributeKind.endCode then pure []
      else do
        let declared ← u32 buf (← add offset 4)
        if hdeclared : declared.toNat < AttributeHeader.size then do
          tell (.attributeLength offset declared.toNat)
          return []
        else do
          have hpos : 0 < declared.toNat := Nat.lt_of_lt_of_le (by decide) (Nat.le_of_not_lt hdeclared)
          match ← attributeAt buf hoffset hpos with
          | (none, _) => pure []
          | (some a, ⟨next, _⟩) =>
            if a.kind = .endMark then pure []
            else return a :: (← attributesFrom buf size next)
  else pure []
termination_by size - offset

/-- The end of an attribute is a word, and one that runs past the end of the record is cut there. -/
theorem attributeEnd_eq {size offset declared : Nat} (hsize : size ≤ maxSize) (hoffset : offset < size)
    (hpos : 0 < declared) (hdeclared : declared < 0x100000000) :
    attributeEnd size hoffset hpos = done ⟨⟨min (offset + declared) size, by omega⟩,
      if size - offset < declared
        then [.attributeOverrun offset declared (size - offset)] else []⟩ := by
  have hmax : maxSize + 0x100000000 ≤ maxWord := by decide
  have hsum : checkedAdd? offset declared = some (offset + declared) :=
    checkedAdd?_of_le (by omega)
  rw [attributeEnd]
  split
  · rename_i last hlast
    obtain rfl : last = offset + declared := eq_add_of_checkedAdd? hlast
    by_cases hinside : offset + declared ≤ size
    · rw [if_pos hinside, if_neg (by omega)]
      simp only [Nat.min_eq_left hinside]
      rfl
    · rw [if_neg hinside, if_pos (by omega), sub_of_le (Nat.le_of_lt hoffset), bind_eq_andThen,
        done_clean_andThen]
      simp only [Nat.min_eq_right (Nat.le_of_not_le hinside)]
      rfl
  · rename_i hnone
    rw [hsum] at hnone
    cases hnone

theorem attributeAt_eq {offset declared : Nat} (hbuf : buf.length ≤ maxSize)
    (hoffset : offset < buf.length) (hpos : 0 < declared) (hdeclared : declared < 0x100000000) :
    attributeAt buf hoffset hpos =
      done ⟨((Attribute.decode ((buf.drop offset).take declared)).value,
          ⟨min (offset + declared) buf.length, by omega⟩),
        (if buf.length - offset < declared
          then [.attributeOverrun offset declared (buf.length - offset)] else []) ++
        (Attribute.decode ((buf.drop offset).take declared)).notes⟩ := by
  have hlength : ((buf.drop offset).take declared).length ≤ maxSize := by
    rw [List.length_take, List.length_drop]
    omega
  rw [attributeAt, attributeEnd_eq hbuf hoffset hpos hdeclared]
  refine done_andThen_of_done ?_
  rw [slice_min (Nat.le_of_lt hoffset), bind_eq_andThen, done_clean_andThen, attributeOf_eq hlength]
  exact done_andThen_pure _ _

/-- Only the end mark is of the kind that ends a record. -/
theorem kind_ne_endMark {a : Attribute} (h : (Attribute.decode raw).value = some a)
    (hcode : Bytes.u32 raw 0 ≠ AttributeKind.endCode) : a.kind ≠ .endMark := by
  rw [Attribute.decode] at h
  split at h
  · cases h
  · obtain rfl := Option.some.inj h
    intro hkind
    have hofCode : AttributeKind.ofCode (Bytes.u32 raw 0) = .endMark := hkind
    rw [← AttributeKind.code_ofCode (Bytes.u32 raw 0), hofCode] at hcode
    exact hcode rfl

/-- Past the end of a record nothing is found, wherever the walk ends there. -/
theorem attributesFrom_min (buf : Bytes) (place : Nat) :
    Record.attributesFrom (min place buf.length) (buf.drop (min place buf.length)) =
      Record.attributesFrom place (buf.drop place) := by
  by_cases hinside : place ≤ buf.length
  · rw [Nat.min_eq_left hinside]
  · have hpast : buf.length ≤ place := Nat.le_of_not_le hinside
    rw [Nat.min_eq_right hpast, List.drop_length, List.drop_eq_nil_of_le hpast, Record.attributesFrom,
      Record.attributesFrom, if_pos rfl, if_pos rfl]

/-- The walk on the machine never fails, and finds what the library finds. -/
theorem attributesFrom_eq (hbuf : buf.length ≤ maxSize) (offset : Nat) :
    attributesFrom buf buf.length offset =
      done (Record.attributesFrom offset (buf.drop offset)) := by
  have hmax : maxSize + 0x100000000 ≤ maxWord := by decide
  rw [attributesFrom, Record.attributesFrom]
  by_cases hoffset : offset < buf.length
  · have hne : buf.drop offset ≠ [] := by
      rw [Ne, List.drop_eq_nil_iff]
      omega
    rw [dif_pos hoffset, if_neg hne, u32?_eq hbuf, Bytes.u32?_drop, Nat.add_zero, bind_eq_andThen,
      done_clean_andThen]
    cases hfirst : Bytes.u32? buf offset with
    | none => rfl
    | some code =>
        simp only [add_of_le (show offset + 4 ≤ maxWord by omega), u32_eq hbuf, Bytes.u32_drop,
          bind_eq_andThen, done_clean_andThen]
        generalize Bytes.u32 buf (offset + 4) = declared
        by_cases hend : code = AttributeKind.endCode
        · rw [if_pos hend, if_pos hend]
          rfl
        · rw [if_neg hend, if_neg hend]
          by_cases hshort : declared.toNat < AttributeHeader.size
          · rw [dif_pos hshort, if_pos hshort]
            rfl
          · have hheader : AttributeHeader.size = 16 := rfl
            have hdeclared := declared.toNat_lt
            have hfurther : buf.length - min (offset + declared.toNat) buf.length <
                buf.length - offset := by omega
            have hcode : Bytes.u32 ((buf.drop offset).take declared.toNat) 0 ≠
                AttributeKind.endCode := by
              rw [Bytes.u32_take _ (by omega), Bytes.u32_drop, Nat.add_zero, Bytes.u32, hfirst]
              exact hend
            have hnext := attributesFrom_eq hbuf (min (offset + declared.toNat) buf.length)
            rw [attributesFrom_min, ← List.drop_drop] at hnext
            rw [dif_neg hshort, if_neg hshort, attributeAt_eq hbuf hoffset (by omega) hdeclared]
            cases hfront : Attribute.decode ((buf.drop offset).take declared.toNat) with
            | mk front notes =>
                cases front with
                | none =>
                  simp only [List.length_drop]
                  exact done_andThen_of_clean rfl
                | some a =>
                  have hkind : a.kind ≠ .endMark := kind_ne_endMark (by rw [hfront]) hcode
                  simp only [List.length_drop]
                  refine done_andThen_of_done ?_
                  simp only [if_neg hkind, hnext]
                  exact done_andThen_pure _ _
  · have hnil : buf.drop offset = [] := List.drop_eq_nil_of_le (Nat.le_of_not_lt hoffset)
    rw [dif_neg hoffset, if_pos hnil]
    rfl
termination_by buf.length - offset

/-! ## Records -/

def recordHeader (raw : Bytes) : Work RecordHeader := do
  let signature ← u32 raw 0x00
  let base ← reference (← u64 raw 0x20)
  let arrayOffset ← u16 raw 0x04
  let arrayCount ← u16 raw 0x06
  let logSequence ← u64 raw 0x08
  let sequence ← u16 raw 0x10
  let hardLinks ← u16 raw 0x12
  let attributesOffset ← u16 raw 0x14
  let flags ← u16 raw 0x16
  let bytesInUse ← u32 raw 0x18
  let bytesAllocated ← u32 raw 0x1C
  let nextAttributeId ← u16 raw 0x28
  let number ← u32 raw 0x2C
  return { signature, arrayOffset, arrayCount, logSequence, sequence, hardLinks, attributesOffset, flags
           bytesInUse, bytesAllocated, base, nextAttributeId, number }

/-- Undo the protection of a record of `size` bytes and walk over its attributes. -/
def contents (id : UInt64) (header : RecordHeader) (buf : Bytes) (size : Nat) :
    Work (List Attribute × List Warning) := do
  let outcome ← restore buf header.arrayOffset.toNat header.arrayCount.toNat
  let torn := match outcome with
    | .ok _ => []
    | .error fault => [Warning.corruption id fault.message]
  let settled := match outcome with
    | .ok restored => restored
    | .error _ => buf
  let attributes ← withNotes (attributesFrom settled size header.attributesOffset.toNat)
  return (attributes.value, torn ++ attributes.notes.map (Warning.ofNote id))

def parse (id : UInt64) (raw : Bytes) : Work Record := do
  let size := min raw.length Record.size
  let buf ← slice raw 0 size
  let header ← recordHeader buf
  let record := Record.blank id header
  if record.isValid then do
    let (attributes, warnings) ← contents id header buf size
    return { record with attributes, warnings }
  else return record

theorem recordHeader_eq (hraw : raw.length ≤ maxSize) :
    recordHeader raw = done (.clean (RecordHeader.decode (raw.take RecordHeader.size))) := by
  have hsize : RecordHeader.size = 48 := rfl
  simp (disch := decide) only [recordHeader, u16_eq hraw, u32_eq hraw, u64_eq hraw, reference_eq,
    bind_eq_andThen, done_clean_andThen, RecordHeader.decode, hsize, Bytes.u16_take, Bytes.u32_take,
    Bytes.u64_take]
  rfl

/-- The walk over what is read on after an attempt to restore. -/
theorem attributesFrom_settled (b : Buffer) (hsize : b.size ≤ Record.size) (array count start : Nat) :
    attributesFrom (Fixup.settled b (Fixup.restore b array count)).toList b.size start =
      done (Record.attributesFrom start
        ((Fixup.settled b (Fixup.restore b array count)).window start Record.size)) := by
  have hsame := Fixup.size_settled b array count
  generalize Fixup.settled b (Fixup.restore b array count) = settled at *
  have hlength : settled.toList.length = b.size := by rw [Buffer.length_toList, hsame]
  have hrecord : Record.size ≤ maxSize := by decide
  have hwhole : (settled.toList.drop start).length ≤ Record.size := by
    rw [List.length_drop]
    omega
  rw [Buffer.window_eq, List.take_of_length_le hwhole, ← hlength]
  exact attributesFrom_eq (by omega) start

/-- A record that cannot be restored is walked as it stands. -/
theorem contents_eq (id : UInt64) (header : RecordHeader) (b : Buffer) (hsize : b.size ≤ Record.size) :
    contents id header b.toList b.size = done (.clean
      (let outcome := Fixup.restore b header.arrayOffset.toNat header.arrayCount.toNat
       let torn := match outcome with
         | .ok _ => []
         | .error fault => [Warning.corruption id fault.message]
       let attributes := Record.attributesFrom header.attributesOffset.toNat
         ((Fixup.settled b outcome).window header.attributesOffset.toNat Record.size)
       (attributes.value, torn ++ attributes.notes.map (Warning.ofNote id)))) := by
  have harray : header.arrayOffset.toNat + 2 * header.arrayCount.toNat ≤ maxWord := by
    have hword : 0x40000 ≤ maxWord := by decide
    have hoffset := header.arrayOffset.toNat_lt
    have hcount := header.arrayCount.toNat_lt
    omega
  have hwalk := attributesFrom_settled b hsize header.arrayOffset.toNat header.arrayCount.toNat
    header.attributesOffset.toNat
  rw [contents, restore_eq (Nat.le_trans hsize (by decide)) harray, bind_eq_andThen,
    done_clean_andThen]
  cases houtcome : Fixup.restore b header.arrayOffset.toNat header.arrayCount.toNat
  all_goals
    rw [houtcome] at hwalk
    simp only [Except.map, Fixup.settled] at hwalk ⊢
    rw [hwalk]
    rfl

/-- A record is read from its first bytes. -/
theorem slice_front (raw : Bytes) :
    slice raw 0 (min raw.length Record.size) =
      done (.clean ((Buffer.ofList raw).slice 0 Record.size).toList) := by
  have hcut : slice raw 0 (min (0 + Record.size) raw.length) = done (.clean (raw.take Record.size)) :=
    slice_min (Nat.zero_le _)
  rw [Nat.zero_add, Nat.min_comm] at hcut
  rw [hcut, Buffer.toList_slice, Buffer.toList_ofList, List.drop_zero]

/-- Reading a record never fails, whatever its bytes are: no sum overflows, no difference is below zero,
no shift is too wide and no index lies outside.  The record is the one that the library reads. -/
theorem parse_eq_done (id : UInt64) (raw : Bytes) :
    parse id raw = done (.clean (Record.parse id (.ofList raw))) := by
  have hsize : ((Buffer.ofList raw).slice 0 Record.size).size = min raw.length Record.size := by
    rw [Buffer.size_slice, Buffer.size_ofList, Nat.sub_zero, Nat.min_comm]
  have hsmall : ((Buffer.ofList raw).slice 0 Record.size).size ≤ Record.size := by
    rw [hsize]
    exact Nat.min_le_right ..
  have hheader : (Buffer.ofList raw).window 0 RecordHeader.size =
      ((Buffer.ofList raw).slice 0 Record.size).toList.take RecordHeader.size := by
    rw [Buffer.window_eq, Buffer.toList_slice, List.drop_zero, List.drop_zero, List.take_take]
    rfl
  have hlength : ((Buffer.ofList raw).slice 0 Record.size).toList.length ≤ maxSize := by
    rw [Buffer.length_toList]
    exact Nat.le_trans hsmall (by decide)
  rw [parse, Record.parse, hheader, slice_front, ← hsize, bind_eq_andThen, done_clean_andThen,
    recordHeader_eq hlength, bind_eq_andThen, done_clean_andThen]
  generalize (Buffer.ofList raw).slice 0 Record.size = b at *
  generalize RecordHeader.decode (b.toList.take RecordHeader.size) = header
  rw [contents_eq id header b hsmall]
  dsimp only
  split <;> rfl

end Ntfs.Machine
