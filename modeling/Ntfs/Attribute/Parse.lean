import Ntfs.Attribute.Basic

/-!
# Decoding attributes

`Attribute.decode` reads one attribute from the bytes its declared length covers.  Whatever those
bytes hold, it reads nothing outside them, and every clamp and every part left out has its note.
-/

namespace Ntfs

namespace AttributeHeader

def size : Nat := 16

/-- The name of an attribute, if it has one that lies inside. -/
def decodeName (kind : AttributeKind) (raw : Bytes) : Noted (Option String) :=
  let units := (Bytes.u8 raw 9).toNat
  if units = 0 then .clean none
  else
    match Bytes.slice? raw (Bytes.u16 raw 10).toNat (2 * units) with
    | some stored => .clean (some (Utf16.decode stored))
    | none => .note none (.attributeNameOutside kind)

def decode (raw : Bytes) : Noted AttributeHeader :=
  let kind := AttributeKind.ofCode (Bytes.u32 raw 0)
  (decodeName kind raw).map fun name => {
    kind
    length := Bytes.u32 raw 4
    nonResident := Bytes.u8 raw 8 != 0
    nameLength := Bytes.u8 raw 9
    nameOffset := Bytes.u16 raw 10
    flags := Bytes.u16 raw 12
    id := Bytes.u16 raw 14
    name }

end AttributeHeader

namespace AttributeBody

def decode (kind : AttributeKind) (name : Option String) (value : Bytes) : Noted AttributeBody :=
  let orUndecoded {α : Type} (wrap : α → AttributeBody) (x : Noted (Option α)) :=
    x.map fun decoded => (decoded.map wrap).getD .undecoded
  match kind with
  | .standardInformation => orUndecoded .standardInformation (StandardInformation.decode value)
  | .attributeList => (ListEntry.decodeAll (.ofList value)).map .attributeList
  | .fileName => orUndecoded .fileName (FileName.decode value)
  | .objectId => orUndecoded .objectId (ObjectId.decode value)
  | .volumeName => .clean (.volumeName (Utf16.decode value))
  | .volumeInformation => orUndecoded .volumeInformation (VolumeInformation.decode value)
  | .data => .clean (.data value)
  | .indexRoot => orUndecoded .indexRoot (IndexRoot.decode (.ofList value))
  | .indexAllocation =>
    (IndexAllocation.decode (.ofList value) none (name == some directoryIndexName)).map
      .indexAllocation
  | .bitmap => .clean (.bitmap ⟨.ofList value⟩)
  | .reparsePoint => orUndecoded .reparsePoint (ReparsePoint.decode value)
  | .securityDescriptor | .extendedInformation | .extended | .propertySet
  | .loggedUtilityStream => .clean (.raw value)
  | .endMark | .other _ => .note .undecoded (.unknownKind kind.code)

/-- What stands for content that lies on the disk. -/
def placeholder : AttributeKind → AttributeBody
  | .data => .data []
  | .indexAllocation => .indexAllocation .unloaded
  | .attributeList => .attributeList []
  | .bitmap => .bitmap ⟨.empty⟩
  | _ => .undecoded

end AttributeBody

namespace ResidentForm

def headerSize : Nat := 0x18

def decode (header : AttributeHeader) (raw : Bytes) : Noted (Residency × AttributeBody) :=
  let form : ResidentForm :=
    { valueLength := Bytes.u32 raw 0x10
      valueOffset := Bytes.u16 raw 0x14
      indexed := Bytes.u8 raw 0x16 }
  if raw.length < headerSize then
    .note (.resident form, .undecoded) (.residentHeaderCut header.kind)
  else
    let available := raw.drop form.valueOffset.toNat
    let wanted := form.valueLength.toNat
    let body := AttributeBody.decode header.kind header.name (available.take wanted)
    let cut := if available.length < wanted
      then [Note.valueCut header.kind wanted available.length] else []
    ⟨(.resident form, body.value), cut ++ body.notes⟩

end ResidentForm

namespace NonResidentForm

def headerSize : Nat := 0x40

/-- Decode the run list, which must not start inside the header. -/
def decodeRuns (kind : AttributeKind) (offset : Nat) (raw : Bytes) : Noted RunList :=
  if headerSize ≤ offset ∧ offset ≤ raw.length then
    let runs := RunList.decode (raw.drop offset)
    match runs.stopReason with
    | none => .clean runs
    | some reason => .note runs (.runListStopped kind reason)
  else .note .empty (.runListOutside kind offset)

def decode (header : AttributeHeader) (raw : Bytes) : Noted (Residency × AttributeBody) :=
  let runs := decodeRuns header.kind (Bytes.u16 raw 0x20).toNat raw
  let form : NonResidentForm :=
    { startVcn := Bytes.u64 raw 0x10
      lastVcn := Bytes.u64 raw 0x18
      runListOffset := Bytes.u16 raw 0x20
      compressionUnit := Bytes.u16 raw 0x22
      allocatedLength := Bytes.u64 raw 0x28
      actualLength := Bytes.u64 raw 0x30
      initializedLength := Bytes.u64 raw 0x38
      runList := runs.value }
  let cut := if raw.length < headerSize then [Note.nonResidentHeaderCut header.kind] else []
  let above := if form.allocatedLength < form.actualLength
    then [Note.actualAboveAllocated header.kind form.actualLength.toNat form.allocatedLength.toNat]
    else []
  ⟨(.nonResident form, AttributeBody.placeholder header.kind), cut ++ runs.notes ++ above⟩

end NonResidentForm

namespace Attribute

/-- Decode the attribute that takes exactly the given bytes; none if not even the shared header is
there. -/
def decode (raw : Bytes) : Noted (Option Attribute) :=
  if raw.length < AttributeHeader.size then .note none (.attributeCut raw.length)
  else
    let header := AttributeHeader.decode raw
    let content := if header.value.nonResident
      then NonResidentForm.decode header.value raw else ResidentForm.decode header.value raw
    { value := some ⟨header.value, content.value.1, content.value.2⟩
      notes := header.notes ++ content.notes }

end Attribute

end Ntfs
