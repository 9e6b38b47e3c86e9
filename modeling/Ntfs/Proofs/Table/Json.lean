import Ntfs.Proofs.Attribute.Instants
import Ntfs.Proofs.Content.Placement
import Ntfs.Proofs.Record.Json
import Ntfs.Proofs.Table.Resolve

/-!
# Records of a table are read back from JSON

Whatever bytes a table is built from and whatever the disk does, the instants in its records are
file times (`Dated`).  They all have time stamps, so every record is read back from its stored form
in every field (`ofJson?_toJson_of_build`).
-/

namespace Ntfs

/-- Every instant in the attribute is a file time. -/
def Attribute.Dated (a : Attribute) : Prop := ∀ t ∈ a.body.instants, t.IsFileTime

def Record.Dated (r : Record) : Prop := ∀ a ∈ r.attributes, a.Dated

namespace Record

theorem dated_attributesFrom (offset : Nat) (rest : Bytes) :
    ∀ a ∈ (attributesFrom offset rest).value, a.Dated := by
  have hnil : ∀ a ∈ ([] : List Attribute), a.Dated := fun _ ha => absurd ha List.not_mem_nil
  fun_induction attributesFrom offset rest with
  | case1 => exact hnil
  | case2 => exact hnil
  | case3 => exact hnil
  | case4 => exact hnil
  | case5 => exact hnil
  | case6 _ _ _ _ _ _ _ _ _ _ _ a ha _ ih =>
      exact List.forall_mem_cons.mpr ⟨fun t ht => Attribute.isFileTime_of_decode ha ht, ih⟩

theorem dated_parse (id : UInt64) (raw : Buffer) : (parse id raw).Dated := by
  rw [parse]
  dsimp only
  split
  · exact dated_attributesFrom _ _
  · exact fun _ ha => absurd ha List.not_mem_nil

end Record

namespace Table

theorem isFileTime_of_decodeLoaded {r : Record} {a : Attribute} {content : Buffer} {t : Instant}
    (h : t ∈ (decodeLoaded r a content).value.instants) : t.IsFileTime := by
  rw [decodeLoaded] at h
  split at h
  · cases h
  · exact IndexAllocation.isFileTime_of_decode h

/-- A body that is loaded has no instants but file times. -/
theorem dated_of_loadAttribute {disk : Disk} {g : Geometry} {r : Record} {a b : Attribute}
    (ha : a.Dated) (h : (loadAttribute disk g r a).result = .ok b) : b.Dated := by
  rw [loadAttribute] at h
  split at h
  · obtain ⟨outcome, -, h⟩ := Trace.andThen_result_eq_ok_iff.mp h
    cases outcome with
    | error failure =>
        cases h
        exact ha
    | ok content =>
        cases h
        exact fun t ht => isFileTime_of_decodeLoaded ht
  · cases h
    exact ha

theorem dated_of_loadRecord {disk : Disk} {g : Geometry} {r loaded : Record}
    (hr : r.Dated) (h : (loadRecord disk g r).result = .ok loaded) : loaded.Dated := by
  obtain ⟨attributes, hattributes, h⟩ := Trace.andThen_result_eq_ok_iff.mp h
  cases h
  exact Trace.forall_mem_of_mapM (fun a b ha hb => dated_of_loadAttribute ha hb) hr hattributes

theorem dated_of_loadRecords {source : Option (Disk × Geometry)} {records loaded : List Record}
    (hrecords : ∀ r ∈ records, r.Dated) (h : (loadRecords source records).result = .ok loaded) :
    ∀ r ∈ loaded, r.Dated := by
  cases source with
  | none =>
      cases h
      exact hrecords
  | some source => exact Trace.forall_mem_of_mapM (fun r _ hr => dated_of_loadRecord hr) hrecords h

/-- Every instant in a built table is a file time, as filling in leaves the attributes as they were
loaded. -/
theorem dated_of_build {options : TableOptions} {raw : Buffer} {t : Table}
    (h : (build options raw).result = .ok t) {i : Nat} {r : Record} (hr : t.get? i = some r) :
    r.Dated := by
  obtain ⟨u, -, hu, rfl, -⟩ := exists_unresolved_of_build h
  rw [unresolved] at hu
  obtain ⟨range, -, hu⟩ := Trace.andThen_result_eq_ok_iff.mp hu
  obtain ⟨_, -, hu⟩ := Trace.andThen_result_eq_ok_iff.mp hu
  obtain ⟨loaded, hloaded, hu⟩ := Trace.andThen_result_eq_ok_iff.mp hu
  cases hu
  have hparsed : ∀ r ∈ parseRecords range (stored raw), r.Dated := by
    intro r hr
    obtain ⟨⟨bytes, index⟩, -, rfl⟩ := List.mem_map.mp hr
    exact Record.dated_parse _ _
  obtain ⟨before, link, found, hbefore, rfl⟩ := exists_of_get?_resolved hr
  have hmem : before ∈ loaded := List.mem_of_getElem? (by simpa [get?] using hbefore)
  exact dated_of_loadRecords hparsed hloaded before hmem

/-- Reading the stored form of a record of a built table gives the record in every field.  The times
in it are whole microseconds of the years 1601 to 60056. -/
theorem ofJson?_toJson_of_build (options : TableOptions) (raw : Buffer) (t : Table)
    (h : (build options raw).result = .ok t) (i : Nat) (r : Record) (hr : t.get? i = some r) :
    Record.ofJson? r.toJson = some r ∧
      ∀ instant ∈ r.instants, instant.nanos < 1000000000 ∧ instant.nanos % 1000 = 0 ∧
        1601 ≤ (Day.ofEpoch (instant.seconds / 86400)).year ∧
        (Day.ofEpoch (instant.seconds / 86400)).year ≤ 60056 := by
  have hdated : ∀ instant ∈ r.instants, instant.IsFileTime := by
    intro instant hinstant
    obtain ⟨a, ha, hinstant⟩ := List.mem_flatMap.mp hinstant
    exact dated_of_build h hr a ha instant hinstant
  exact ⟨Record.ofJson?_toJson fun instant hinstant => (hdated instant hinstant).hasStamp,
    fun instant hinstant => (hdated instant hinstant).range⟩

/-! ## The first and the last time -/

/-- A standard information attribute with the last file time there is, the first one, one between
them and none. -/
def stampedBytes : Bytes :=
  Content.filled 16 [0x10, 0, 0, 0, 0x48] ++ [0x30, 0, 0, 0, 0x18, 0, 0, 0] ++
    List.replicate 8 0xFF ++ Content.filled 8 [1] ++
    [0x80, 0x96, 0x98, 0, 0, 0, 0, 0] ++ List.replicate 24 0

def stamped : Attribute where
  header := ⟨.standardInformation, 0x48, false, 0, 0, 0, 0, none⟩
  residency := .resident ⟨0x30, 0x18, 0⟩
  body := .standardInformation {
    stamps := ⟨some ⟨1833029933770, 955161000⟩, some ⟨-11644473600, 0⟩, some ⟨-11644473599, 0⟩,
      none⟩
    flags := 0
    maxVersions := 0
    version := 0
    classId := 0
    ownerId := none
    securityId := none
    quotaCharged := none
    journalSequence := none }

theorem build_stampedBytes :
    (build ⟨none, none⟩ (Buffer.ofList (Content.recordBytes stampedBytes))).result =
      .ok ⟨#[Content.recordOf 0 [stamped] none]⟩ := by
  have hparse : Record.parse 0 (Buffer.ofList (Content.recordBytes stampedBytes)) =
      Content.recordOf 0 [stamped] none :=
    Content.parse_recordBytes 0 (by decide +kernel)
  rw [build_result_of_record (by decide +kernel), hparse]
  exact congrArg Except.ok (by decide +kernel)

/-- The last file time there is, the first one, one between them and none are all read back. -/
theorem ofJson?_toJson_of_build_stamped :
    (build ⟨none, none⟩ (Buffer.ofList (Content.recordBytes stampedBytes))).result =
        .ok ⟨#[Content.recordOf 0 [stamped] none]⟩ ∧
      Record.ofJson? (Content.recordOf 0 [stamped] none).toJson =
        some (Content.recordOf 0 [stamped] none) ∧
      Rfc3339.zulu ⟨1833029933770, 955161000⟩ = "+60056-05-28T05:36:10.955161Z" := by
  refine ⟨build_stampedBytes, ?_, ?_⟩
  · exact (ofJson?_toJson_of_build _ _ _ build_stampedBytes 0 _ rfl).1
  · decide +kernel

end Table

end Ntfs
