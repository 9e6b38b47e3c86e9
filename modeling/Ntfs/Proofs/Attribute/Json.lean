import Ntfs.Attribute.Json
import Ntfs.Proofs.Json.Decode
import Ntfs.Proofs.Time.Rfc3339

/-!
# Attributes are read back from JSON

For each type of attribute the reader is a left inverse of the writer.  A value is read back
whatever its fields hold, only the instants in it must have time stamps; `instants` lists those of a
value.
-/

namespace Ntfs

open Json

@[simp]
theorem optional_word64 (n : Option UInt64) : optional u64? (some (word64 n)) = some n :=
  optional_opt rfl fun n _ => u64?_nat n

@[simp]
theorem optional_word32 (n : Option UInt32) : optional u32? (some (word32 n)) = some n :=
  optional_opt rfl fun n _ => u32?_nat n

/-! ## Times -/

theorem Instant.ofJson?_toJson {t : Instant} (h : t.HasStamp) : ofJson? t.toJson = some t := by
  rw [ofJson?, toJson, str?_str, Option.bind_some, Rfc3339.parse?_zulu h]

namespace Stamps

def instants (s : Stamps) : List Instant :=
  [s.created, s.modified, s.recordModified, s.accessed].filterMap id

/-- Four times are read back from their members, known or not. -/
theorem ofMembers?_opt {s : Stamps} (h : ∀ t ∈ s.instants, t.HasStamp) :
    ofMembers? (some (opt Instant.toJson s.created)) (some (opt Instant.toJson s.modified))
      (some (opt Instant.toJson s.recordModified)) (some (opt Instant.toJson s.accessed)) =
      some s := by
  have hread : ∀ time ∈ [s.created, s.modified, s.recordModified, s.accessed],
      optional Instant.ofJson? (some (opt Instant.toJson time)) = some time := by
    intro time htime
    apply optional_opt rfl
    intro t ht
    exact Instant.ofJson?_toJson (h t (List.mem_filterMap.mpr ⟨time, htime, ht⟩))
  simp only [List.forall_mem_cons] at hread
  obtain ⟨hcreated, hmodified, hrecordModified, haccessed, -⟩ := hread
  rw [ofMembers?, hcreated, hmodified, hrecordModified, haccessed]
  rfl

end Stamps

/-! ## Run lists and names of kinds -/

@[simp]
theorem Run.ofJson?_toJson (r : Run) : ofJson? r.toJson = some r := by
  rw [ofJson?, toJson]
  apply fields?_bind rfl
  · simp
  · simp

@[simp]
theorem RunList.ofJson?_toJson (l : RunList) : ofJson? l.toJson = some l := by
  have hruns : list? Run.ofJson? (list Run.toJson l.runs) = some l.runs :=
    list?_list fun r _ => r.ofJson?_toJson
  rw [ofJson?, toJson]
  apply fields?_bind rfl
  · simp
  · simp [hruns]

@[simp]
theorem AttributeKind.ofJson?_toJson (kind : AttributeKind) : ofJson? kind.toJson = some kind := by
  cases kind with
  | other code =>
      rw [toJson, ofJson?]
      apply tagged?_bind
      simp
  | _ => rfl

@[simp]
theorem Namespace.ofJson?_toJson (n : Namespace) : ofJson? n.toJson = some n := by
  cases n with
  | other b =>
      rw [toJson, ofJson?]
      apply tagged?_bind
      simp
  | _ => rfl

/-! ## Values -/

theorem StandardInformation.ofJson?_toJson {s : StandardInformation}
    (h : ∀ t ∈ s.stamps.instants, t.HasStamp) : ofJson? s.toJson = some s := by
  rw [ofJson?, toJson]
  apply fields?_bind rfl
  · simp [Stamps.members]
  · simp [Stamps.members, Stamps.ofMembers?_opt h]

theorem ListEntry.ofJson?_toJson (e : ListEntry) : ofJson? e.toJson = some e := by
  rw [ofJson?, toJson]
  apply fields?_bind rfl
  · simp
  · simp

theorem FileName.ofJson?_toJson {f : FileName} (h : ∀ t ∈ f.stamps.instants, t.HasStamp) :
    ofJson? f.toJson = some f := by
  rw [ofJson?, toJson]
  apply fields?_bind rfl
  · simp [Stamps.members]
  · simp [Stamps.members, Stamps.ofMembers?_opt h]

@[simp]
theorem ObjectId.ofJson?_toJson (o : ObjectId) : ofJson? o.toJson = some o := by
  rw [ofJson?, toJson]
  apply fields?_bind rfl
  · simp
  · simp

@[simp]
theorem VolumeInformation.ofJson?_toJson (v : VolumeInformation) : ofJson? v.toJson = some v := by
  rw [ofJson?, toJson]
  apply fields?_bind rfl
  · simp
  · simp

@[simp]
theorem Bitmap.ofJson?_toJson (m : Bitmap) : ofJson? m.toJson = some m := by
  rw [ofJson?, toJson]
  apply fields?_bind rfl
  · simp
  · simp

@[simp]
theorem ReparsePoint.ofJson?_toJson (r : ReparsePoint) : ofJson? r.toJson = some r := by
  rw [ofJson?, toJson]
  apply fields?_bind rfl
  · simp
  · simp

@[simp]
theorem IndexNode.ofJson?_toJson (n : IndexNode) : ofJson? n.toJson = some n := by
  rw [ofJson?, toJson]
  apply fields?_bind rfl
  · simp
  · simp

/-! ## Indexes -/

namespace IndexEntry

def instants (e : IndexEntry) : List Instant :=
  e.fileName.toList.flatMap fun f => f.stamps.instants

theorem ofJson?_toJson {e : IndexEntry} (h : ∀ t ∈ e.instants, t.HasStamp) :
    ofJson? e.toJson = some e := by
  have hfileName : optional FileName.ofJson? (some (opt FileName.toJson e.fileName)) =
      some e.fileName := by
    apply optional_opt rfl
    intro f hf
    exact FileName.ofJson?_toJson fun t ht =>
      h t (List.mem_flatMap.mpr ⟨f, Option.mem_toList.mpr hf, ht⟩)
  rw [ofJson?, toJson]
  apply fields?_bind rfl
  · simp
  · simp [hfileName]

/-- Entries are read back one by one. -/
theorem list?_toJson {entries : List IndexEntry}
    (h : ∀ t ∈ entries.flatMap instants, t.HasStamp) :
    list? ofJson? (list toJson entries) = some entries :=
  list?_list fun e he => ofJson?_toJson fun t ht => h t (List.mem_flatMap.mpr ⟨e, he, ht⟩)

end IndexEntry

theorem IndexRoot.ofJson?_toJson {r : IndexRoot}
    (h : ∀ t ∈ r.entries.flatMap IndexEntry.instants, t.HasStamp) : ofJson? r.toJson = some r := by
  rw [ofJson?, toJson]
  apply fields?_bind rfl
  · simp
  · simp [IndexEntry.list?_toJson h]

theorem IndexAllocation.ofJson?_toJson {a : IndexAllocation}
    (h : ∀ t ∈ a.entries.flatMap IndexEntry.instants, t.HasStamp) : ofJson? a.toJson = some a := by
  rw [ofJson?, toJson]
  apply fields?_bind rfl
  · simp
  · simp [IndexEntry.list?_toJson h]

/-! ## Attributes -/

@[simp]
theorem AttributeHeader.ofJson?_toJson (h : AttributeHeader) : ofJson? h.toJson = some h := by
  rw [ofJson?, toJson]
  apply fields?_bind rfl
  · simp
  · simp

@[simp]
theorem ResidentForm.ofJson?_toJson (f : ResidentForm) : ofJson? f.toJson = some f := by
  rw [ofJson?, toJson]
  apply fields?_bind rfl
  · simp
  · simp

@[simp]
theorem NonResidentForm.ofJson?_toJson (f : NonResidentForm) : ofJson? f.toJson = some f := by
  rw [ofJson?, toJson]
  apply fields?_bind rfl
  · simp
  · simp

@[simp]
theorem Residency.ofJson?_toJson (r : Residency) : ofJson? r.toJson = some r := by
  cases r with
  | resident form =>
      rw [toJson, ofJson?]
      apply tagged?_bind
      simp
  | nonResident form =>
      rw [toJson, ofJson?]
      apply tagged?_bind
      simp

namespace AttributeBody

/-- The instants in what an attribute says. -/
def instants : AttributeBody → List Instant
  | standardInformation value => value.stamps.instants
  | fileName value => value.stamps.instants
  | indexRoot value => value.entries.flatMap IndexEntry.instants
  | indexAllocation value => value.entries.flatMap IndexEntry.instants
  | _ => []

theorem ofJson?_toJson {body : AttributeBody} (h : ∀ t ∈ body.instants, t.HasStamp) :
    ofJson? body.toJson = some body := by
  cases body with
  | undecoded => rfl
  | standardInformation value =>
      rw [toJson, ofJson?]
      apply tagged?_bind
      simp [StandardInformation.ofJson?_toJson h]
  | attributeList entries =>
      have hentries : list? ListEntry.ofJson? (list ListEntry.toJson entries) = some entries :=
        list?_list fun e _ => e.ofJson?_toJson
      rw [toJson, ofJson?]
      apply tagged?_bind
      simp [hentries]
  | fileName value =>
      rw [toJson, ofJson?]
      apply tagged?_bind
      simp [FileName.ofJson?_toJson h]
  | indexRoot value =>
      rw [toJson, ofJson?]
      apply tagged?_bind
      simp [IndexRoot.ofJson?_toJson h]
  | indexAllocation value =>
      rw [toJson, ofJson?]
      apply tagged?_bind
      simp [IndexAllocation.ofJson?_toJson h]
  | _ =>
      rw [toJson, ofJson?]
      apply tagged?_bind
      simp

end AttributeBody

theorem Attribute.ofJson?_toJson {a : Attribute} (h : ∀ t ∈ a.body.instants, t.HasStamp) :
    ofJson? a.toJson = some a := by
  rw [ofJson?, toJson]
  apply fields?_bind rfl
  · simp
  · simp [AttributeBody.ofJson?_toJson h]

end Ntfs
