import Ntfs.Proofs.Content.Count
import Ntfs.Proofs.Content.Placement
import Ntfs.Proofs.Record.Intact
import Ntfs.Volume

/-!
# Content that comes short

Content may end before the length its attribute declares: a cluster has no address, the disk ends, or
the device hands over nothing more.  Each of these is told by a warning while reading, and a run list
that stops before its end mark by a note while decoding.  One cause is told by nobody: a run list that
was read to its end mark and covers fewer clusters than the declared length takes
(`short_content_untold`).  Without a warning there is no other (`short_content_accounted`).
-/

namespace Ntfs

namespace Record

/-- Every attribute of a record that gave no warning is intact. -/
theorem intact_of_mem_attributes {id : UInt64} {raw : Buffer}
    (hvalid : (parse id raw).isValid = true) (hclean : (parse id raw).warnings = [])
    {a : Attribute} (ha : a ∈ (parse id raw).attributes) :
    ∃ bytes, Attribute.Intact bytes a := by
  rw [isValid, header_parse, beq_iff_eq] at hvalid
  rw [parse_of_file id hvalid] at hclean ha
  have hnotes : (walked raw).notes = [] :=
    List.map_eq_nil_iff.mp (List.append_eq_nil_iff.mp hclean).2
  obtain ⟨lengths, stop, leads, -, hwalked⟩ := exists_leads_of_clean hnotes
  have hattributes : walked raw = attributesAt (settledBytes raw) (attributesStart raw) lengths :=
    hwalked
  rw [hattributes] at hnotes ha
  obtain ⟨hlength, hintact⟩ := List.forall₂_iff_get.mp (intact_attributesAt leads hnotes)
  obtain ⟨index, hindex, rfl⟩ := List.getElem_of_mem ha
  exact ⟨_, hintact index (hlength ▸ hindex) hindex⟩

end Record

namespace Volume

variable {v : Volume} {record : Record} {a : Attribute}

/-- The first record of the file table was read from the disk. -/
theorem exists_parse_of_tableRecord (h : v.tableRecord.result = .ok record) :
    ∃ raw, record = Record.parse 0 raw ∧ record.isValid = true := by
  unfold tableRecord at h
  split at h
  · cases h
  · simp only [Trace.bind_eq_andThen] at h
    obtain ⟨raw, -, hread⟩ := Trace.andThen_result_eq_ok_iff.mp h
    split at hread
    · rename_i hvalid
      cases hread
      exact ⟨raw, rfl, hvalid⟩
    · cases hread

/-- The first record is the one that stands where the boot sector says, if it is one. -/
theorem tableRecord_of_readAt {raw : Buffer} {offset : Nat}
    (hoffset : v.geometry.clusterOffset? v.boot.tableCluster.toNat = some offset)
    (hraw : v.disk.readAt offset Record.size = .ok raw)
    (hvalid : (Record.parse 0 raw).isValid = true) :
    v.tableRecord.result = .ok (Record.parse 0 raw) ∧ v.tableRecord.warnings = [] := by
  have hread := Trace.read_result_eq_ok_iff.mpr hraw
  simp only [tableRecord, hoffset, Trace.bind_eq_andThen, Trace.andThen_of_ok hread, if_pos hvalid]
  exact ⟨rfl, rfl⟩

/-- Reading the file table is reading the content of its first record, after the warnings on that
record. -/
theorem readTable_of_tableRecord (h : v.tableRecord.result = .ok record)
    (ha : record.stream? none = some a) :
    v.readTable.result = (Content.ofAttribute v.disk v.geometry record.id a).result ∧
      v.readTable.warnings = v.tableRecord.warnings ++ (record.warnings ++
        (Content.ofAttribute v.disk v.geometry record.id a).warnings) := by
  simp only [readTable, Trace.bind_eq_andThen, Trace.andThen_of_ok h, Trace.warnAll, ha]
  simp [Trace.andThen]

end Volume

namespace Content

open RunList (clusters)

/-- How content of fewer bytes than declared came about: a warning tells of it, or the run list, though
read to its end mark, covers no more than what came. -/
def Accounted (warnings : List Warning) (g : Geometry) (form : NonResidentForm) (size : Nat) : Prop :=
  warnings ≠ [] ∨
    form.runList.complete = true ∧ g.clusterSize * clusters form.runList.runs ≤ size

/-- Less than the declared length is read with a warning, or because the runs cover no more. -/
theorem told_or_runs_short {disk : Disk} {g : Geometry} {record : UInt64} {a : Attribute}
    {form : NonResidentForm} {out : Buffer} (hform : a.residency = .nonResident form)
    (hout : (ofAttribute disk g record a).result = .ok out)
    (hshort : out.size < form.actualLength.toNat) :
    (ofAttribute disk g record a).warnings ≠ [] ∨
      g.clusterSize * clusters form.runList.runs ≤ out.size := by
  obtain ⟨⟨n, hn⟩, hbytes⟩ := Trace.collect_result_eq_ok_iff.mp hout
  have hwalk : walk disk g record a.contentSize.toNat a =
      readRuns disk g record form.actualLength.toNat form.runList.runs := by
    simp only [walk, Attribute.contentSize, hform]
  have hsize : out.size = n := by
    rw [← Buffer.length_toList, hbytes]
    exact walk_counts disk g record _ a n hn
  have hlimit : form.actualLength.toNat ≤ maxWord := Nat.le_of_lt_succ form.actualLength.toNat_lt
  rw [hwalk] at hn
  rcases min_le_or_told hlimit hn with hmin | ⟨_, _, _, htold⟩
  · right
    omega
  · left
    rw [ofAttribute, hwalk]
    exact List.ne_nil_of_mem htold

/-! ## Two clusters declared, one covered -/

/-- An attribute of two clusters and two bytes.  Its run list has its end mark behind the first
cluster. -/
def earlyEndBytes : Bytes :=
  filled 8 [0x80, 0, 0, 0, 0x48] ++ filled 8 [1] ++ filled 8 [0] ++ filled 8 [1] ++
    filled 8 [0x40] ++ filled 8 [2] ++ filled 8 [2] ++ filled 8 [2] ++ filled 8 [0x11, 1, 2]

def earlyEndForm : NonResidentForm :=
  ⟨0, 1, 0x40, 0, 2, 2, 2, ⟨[⟨1, 2, some 2⟩], true, none⟩⟩

def earlyEnd : Attribute :=
  ⟨⟨.data, 0x48, true, 0, 0, 0, 0, none⟩, .nonResident earlyEndForm, .data []⟩

/-- A volume whose first record has this attribute for the content of the file table. -/
def earlyEndVolume : Volume where
  boot := ⟨BootSector.ntfsId, 1, 1, 0, 0, 0, 0, 0, 0, 0⟩
  disk := .ofBuffer (.ofList (recordBytes earlyEndBytes))
  geometry := ⟨0, 1, 1⟩

theorem decode_earlyEndBytes : Attribute.decode earlyEndBytes = .clean (some earlyEnd) := by
  decide +kernel

theorem tableRecord_earlyEndVolume :
    earlyEndVolume.tableRecord.result = .ok (recordOf 0 [earlyEnd] none) ∧
      earlyEndVolume.tableRecord.warnings = [] := by
  have hwhole : ((recordBytes earlyEndBytes).take (0 + Record.size)).drop 0 =
      recordBytes earlyEndBytes := by
    decide +kernel
  have hraw := Disk.readAt_ofList (recordBytes earlyEndBytes) 0 Record.size
  have hparse : Record.parse 0 (Buffer.ofList (recordBytes earlyEndBytes)) =
      recordOf 0 [earlyEnd] none :=
    parse_recordBytes 0 (by decide +kernel)
  rw [hwhole] at hraw
  rw [← hparse]
  exact Volume.tableRecord_of_readAt (by decide) hraw (by rw [hparse]; decide +kernel)

theorem readSpan_of_one {disk : Disk} {offset : Nat} {answer : Buffer}
    (h : disk.readAt offset 1 = .ok answer) (hsize : answer.size = 1) :
    readSpan disk offset 1 = ⟨[⟨offset, 1⟩], [answer], [], .ok 1⟩ := by
  rw [readSpan_of_pos disk offset Nat.one_pos]
  simp [Disk.read, Trace.andThen, Trace.emit, Trace.map, Trace.done, Except.mapError, Except.map,
    maxPiece, h, hsize]

/-- One of the two bytes is read, and no warning is raised. -/
theorem ofAttribute_earlyEnd {disk : Disk} {byte : UInt8} (hinside : 2 < disk.size)
    (hread : disk.readAt 2 1 = .ok (.ofList [byte])) :
    (ofAttribute disk ⟨0, 1, 1⟩ 0 earlyEnd).result = .ok (.ofList [byte]) ∧
      (ofAttribute disk ⟨0, 1, 1⟩ 0 earlyEnd).warnings = [] := by
  have hone : (Buffer.ofList [byte]).size = 1 := by
    rw [← Buffer.length_toList, Buffer.toList_ofList]
    rfl
  have hstart : firstByte? disk ⟨0, 1, 1⟩ 2 = some 2 := by
    rw [firstByte?, show Geometry.clusterOffset? ⟨0, 1, 1⟩ 2 = some 2 by decide]
    simpa using hinside
  have hrun : readRun disk ⟨0, 1, 1⟩ 0 1 2 =
      ⟨[⟨2, 1⟩], [.ofList [byte]], [], .ok ⟨1, true⟩⟩ := by
    rw [readRun_of_inside hstart, Nat.min_eq_left (by omega), readSpan_of_one hread hone]
    rfl
  have hwalk : walk disk ⟨0, 1, 1⟩ 0 earlyEnd.contentSize.toNat earlyEnd =
      ⟨[⟨2, 1⟩], [.ofList [byte]], [], .ok 1⟩ := by
    show (readRun disk ⟨0, 1, 1⟩ 0 1 2).andThen _ = _
    rw [hrun]
    rfl
  rw [ofAttribute, hwalk]
  exact ⟨congrArg Except.ok (Buffer.ext (by simp)), rfl⟩

theorem read_earlyEndVolume :
    (ofAttribute earlyEndVolume.disk earlyEndVolume.geometry 0 earlyEnd).result =
        .ok (.ofList [0x4C]) ∧
      (ofAttribute earlyEndVolume.disk earlyEndVolume.geometry 0 earlyEnd).warnings = [] := by
  have hsize : 2 < earlyEndVolume.disk.size := by
    rw [earlyEndVolume, Disk.ofBuffer, ← Buffer.length_toList, Buffer.toList_ofList]
    decide +kernel
  refine ofAttribute_earlyEnd hsize ?_
  rw [earlyEndVolume, Disk.readAt_ofList]
  exact congrArg (Except.ok ∘ Buffer.ofList) (by decide +kernel)

theorem stream_earlyEnd : (recordOf 0 [earlyEnd] none).stream? none = some earlyEnd := by
  decide +kernel

theorem readTable_earlyEndVolume :
    earlyEndVolume.readTable.result = .ok (.ofList [0x4C]) ∧
      earlyEndVolume.readTable.warnings = [] := by
  obtain ⟨hrecord, hsilent⟩ := tableRecord_earlyEndVolume
  obtain ⟨hresult, hwarnings⟩ := Volume.readTable_of_tableRecord hrecord stream_earlyEnd
  have hid : (recordOf 0 [earlyEnd] none).id = 0 := rfl
  have hnone : (recordOf 0 [earlyEnd] none).warnings = [] := rfl
  rw [hid] at hresult hwarnings
  rw [hresult, hwarnings, hsilent, hnone, List.nil_append, List.nil_append]
  exact read_earlyEndVolume

theorem size_lt_actualLength : (Buffer.ofList [0x4C]).size < earlyEndForm.actualLength.toNat := by
  rw [← Buffer.length_toList, Buffer.toList_ofList]
  decide

/-! ## What a silent shortage means -/

/-- Content of an attribute that was decoded without a note, or of a whole file table, that came short
without a warning has a run list that covers no more than what came.  No answer of the disk, no
geometry and no address of a cluster shortens it silently. -/
theorem short_content_accounted (a : Attribute) (form : NonResidentForm)
    (hform : a.residency = .nonResident form) (out : Buffer)
    (hshort : out.size < form.actualLength.toNat) :
    (∀ (disk : Disk) (g : Geometry) (record : UInt64) (raw : Bytes),
      Attribute.decode raw = .clean (some a) → (ofAttribute disk g record a).result = .ok out →
      Accounted (ofAttribute disk g record a).warnings g form out.size) ∧
    ∀ (v : Volume) (record : Record),
      v.tableRecord.result = .ok record → record.stream? none = some a →
      v.readTable.result = .ok out → Accounted v.readTable.warnings v.geometry form out.size := by
  refine ⟨fun disk g record raw hdecode hout => ?_, fun v record hrecord ha hout => ?_⟩
  · have hsize : AttributeHeader.size ≤ raw.length := by
      by_contra hcut
      rw [Attribute.decode, if_pos (Nat.not_le.mp hcut)] at hdecode
      cases hdecode
    have hwhole : Attribute.decodeWhole raw = .clean a := by
      rw [Attribute.decode_of_size_le hsize] at hdecode
      have hnotes := congrArg Noted.notes hdecode
      have hvalue := congrArg Noted.value hdecode
      exact congrArg₂ Noted.mk (Option.some.inj hvalue) hnotes
    have hintact := Attribute.intact_of_clean hsize (by rw [hwhole]; rfl)
    rw [hwhole] at hintact
    exact (told_or_runs_short hform hout hshort).imp_right
      fun hruns => ⟨(hintact.runs_ended form hform).2, hruns⟩
  · obtain ⟨hresult, hwarnings⟩ := Volume.readTable_of_tableRecord hrecord ha
    by_cases hsilent : v.readTable.warnings = []
    · right
      rw [hwarnings, List.append_eq_nil_iff, List.append_eq_nil_iff] at hsilent
      obtain ⟨-, hclean, hread⟩ := hsilent
      obtain ⟨raw, rfl, hvalid⟩ := Volume.exists_parse_of_tableRecord hrecord
      obtain ⟨bytes, hintact⟩ :=
        Record.intact_of_mem_attributes hvalid hclean (List.mem_of_find?_eq_some ha)
      exact ⟨(hintact.runs_ended form hform).2,
        (told_or_runs_short hform (hresult ▸ hout) hshort).resolve_left (not_not_intro hread)⟩
    · exact .inl hsilent

/-- One of two bytes, as the run list ends behind the first cluster. -/
theorem short_content_accounted_earlyEnd :
    Attribute.decode earlyEndBytes = .clean (some earlyEnd) ∧
    earlyEnd.residency = .nonResident earlyEndForm ∧ (Buffer.ofList [0x4C]).size < 2 ∧
    Accounted (ofAttribute earlyEndVolume.disk earlyEndVolume.geometry 0 earlyEnd).warnings
      earlyEndVolume.geometry earlyEndForm (Buffer.ofList [0x4C]).size ∧
    Accounted earlyEndVolume.readTable.warnings earlyEndVolume.geometry earlyEndForm
      (Buffer.ofList [0x4C]).size := by
  refine ⟨decode_earlyEndBytes, rfl, size_lt_actualLength, ?_, ?_⟩
  · exact (short_content_accounted earlyEnd earlyEndForm rfl _ size_lt_actualLength).1 _ _ _ _
      decode_earlyEndBytes read_earlyEndVolume.1
  · exact (short_content_accounted earlyEnd earlyEndForm rfl _ size_lt_actualLength).2 _ _
      tableRecord_earlyEndVolume.1 stream_earlyEnd readTable_earlyEndVolume.1

/-- Fewer bytes than declared may come without a note and without a warning, and so may fewer of the
file table. -/
theorem short_content_untold :
    (¬ ∀ (disk : Disk) (g : Geometry) (record : UInt64) (raw : Bytes) (a : Attribute)
      (form : NonResidentForm) (out : Buffer),
      Attribute.decode raw = .clean (some a) → a.residency = .nonResident form → 0 < g.clusterSize →
      (ofAttribute disk g record a).result = .ok out → out.size < form.actualLength.toNat →
      (ofAttribute disk g record a).warnings ≠ []) ∧
    ¬ ∀ (v : Volume) (record : Record) (a : Attribute) (form : NonResidentForm) (out : Buffer),
      v.tableRecord.result = .ok record → record.stream? none = some a →
      a.residency = .nonResident form → 0 < v.geometry.clusterSize →
      v.readTable.result = .ok out → out.size < form.actualLength.toNat →
      v.readTable.warnings ≠ [] := by
  refine ⟨fun htold => ?_, fun htold => ?_⟩
  · exact htold _ _ _ _ _ _ _ decode_earlyEndBytes rfl (by decide) read_earlyEndVolume.1
      size_lt_actualLength read_earlyEndVolume.2
  · exact htold _ _ _ _ _ tableRecord_earlyEndVolume.1 stream_earlyEnd rfl (by decide)
      readTable_earlyEndVolume.1 size_lt_actualLength readTable_earlyEndVolume.2

end Content

end Ntfs
