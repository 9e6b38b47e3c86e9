import Mathlib.Data.List.MinMax
import Ntfs.Proofs.Content.Placement
import Ntfs.Proofs.Record.Walk
import Ntfs.Proofs.Table.Load

/-!
# What holds of every table

Whatever the records hold and whatever the disk does, building a table fails only for a range of
records that does not exist.  In the table it gives, the number of a record is its place, and a link or
a parent is the number of a record of the table, so no lookup by one of them leaves it.
-/

namespace Ntfs

/-- The name shown for a file is the earliest of the names with the lowest rank. -/
theorem FileName.preferred?_eq_argmin (names : List FileName) :
    preferred? names = names.argmin (·.space.rank) := by
  have hfold (best : FileName) (rest : List FileName) :
      some (rest.foldl better best) =
        rest.foldl (List.argAux fun a b : FileName => a.space.rank < b.space.rank) (some best) := by
    induction rest generalizing best with
    | nil => rfl
    | cons f rest ih =>
        have hstep : List.argAux (fun a b : FileName => a.space.rank < b.space.rank) (some best) f =
            some (better best f) := (apply_ite some _ _ _).symm
        rw [List.foldl_cons, List.foldl_cons, hstep, ih]
  cases names with
  | nil => rfl
  | cons f rest => exact hfold f rest

namespace Table

variable {options : TableOptions} {raw : Buffer}

/-- The range asks for records that do not exist. -/
def RangeOutside (range : Option (Nat × Nat)) (total : Nat) : Prop :=
  ∃ start stop, range = some (start, stop) ∧ (stop ≤ start ∨ total < stop)

/-- A range is refused exactly if it asks for records that do not exist. -/
theorem rangeOf_eq_error_iff {range : Option (Nat × Nat)} {total : Nat} {failure : Failure} :
    rangeOf range total = .error failure ↔
      ∃ start stop, range = some (start, stop) ∧ (stop ≤ start ∨ total < stop) ∧
        failure = .entryRange start stop total := by
  rcases range with - | ⟨start, stop⟩
  · simp [rangeOf]
  · rw [rangeOf]
    split
    · rename_i houtside
      simp [houtside, eq_comm]
    · rename_i hinside
      simp [hinside]

/-- What holds of a record at place `i` of a table. -/
structure Sound (t : Table) (i : Nat) (r : Record) : Prop where
  id_eq : r.id.toNat = i
  link_inside : ∀ target, r.link = some target → target.toNat < t.size ∧ target.toNat ≠ i
  parent_iff : ∀ parent, r.parent = some parent ↔
    parent.toNat < t.size ∧ ∃ f ∈ r.fileNames.argmin (·.space.rank), f.parent.record = parent
  blank : r.isValid = false → r.attributes = [] ∧ r.parent = none ∧ r.warnings = []

/-- Filling in makes every record of a fresh table sound. -/
theorem sound_of_get?_resolved {u : Table}
    (hfresh : ∀ i r, u.get? i = some r → r.Fresh (UInt64.ofNat i)) (hword : u.size ≤ maxWord)
    {i : Nat} {r : Record} (hr : u.resolved.get? i = some r) : u.resolved.Sound i r := by
  obtain ⟨before, link, found, hbefore, heq⟩ := exists_of_get?_resolved hr
  have hold := hfresh i before hbefore
  have hi : i < u.size := (Array.getElem?_eq_some_iff.mp hbefore).1
  have hparent : r.parent =
      (r.preferredName?.map (·.parent.record)).filter (·.toNat < u.size) := by
    rw [heq]
    simp only [hold.parent_eq, Option.or_none]
    rfl
  refine ⟨?_, fun target htarget => ?_, fun parent => ?_, fun hinvalid => ?_⟩
  · rw [heq, hold.id_eq, UInt64.toNat_ofNat_of_lt']
    exact Nat.lt_of_lt_of_le hi (hword.trans (by decide))
  · have hlinked : u.linked.1.link? i = some target.toNat := by
      rw [← link?_resolved, link?, hr, Option.bind_some, htarget, Option.map_some]
    have hinside := linksInside_linked hword (link?_of_fresh hfresh) i _ hlinked
    rwa [linked, size_applyLinks, ← size_resolved] at hinside
  · rw [hparent, size_resolved, Record.preferredName?, FileName.preferred?_eq_argmin]
    simp [Option.filter_eq_some_iff, and_comm]
  · obtain ⟨hattributes, hwarnings⟩ := hold.blank (by rw [← hinvalid, heq]; rfl)
    refine ⟨by rw [heq]; exact hattributes, ?_, by rw [heq]; exact hwarnings⟩
    have hnames : r.preferredName? = none := by
      rw [heq, Record.preferredName?, Record.fileNames, hattributes]
      rfl
    rw [hparent, hnames]
    rfl

/-- The record of a number bears it. -/
theorem exists_record_of_build {options : TableOptions} {raw : Buffer} (hword : raw.size ≤ maxWord)
    {t : Table} (h : (build options raw).result = .ok t) {id : Nat} (hid : id < t.size) :
    ∃ r, t.get? id = some r ∧ r.id.toNat = id := by
  obtain ⟨u, -, -, rfl, -, hsize, hfresh⟩ := exists_fresh_of_build h
  have hrecords : u.size ≤ maxWord := hsize ▸ (Nat.div_le_self ..).trans hword
  have hr : u.resolved.get? id = some u.resolved.records[id] := Array.getElem?_eq_getElem hid
  exact ⟨_, hr, (sound_of_get?_resolved hfresh hrecords hr).id_eq⟩

/-- Building fails for a range of records that does not exist, before anything is read and without a
warning, and for nothing else.  Otherwise it gives a table of all records, and each of them is sound. -/
theorem build_gives_sound_table (options : TableOptions) (raw : Buffer) (hword : raw.size ≤ maxWord) :
    ((∃ failure, (build options raw).result = .error failure) ↔
      RangeOutside options.range (raw.size / Record.size)) ∧
    (∀ failure, (build options raw).result = .error failure →
      (∃ start stop, failure = .entryRange start stop (raw.size / Record.size)) ∧
      (build options raw).requests = [] ∧ (build options raw).warnings = []) ∧
    ∀ t, (build options raw).result = .ok t →
      t.size = raw.size / Record.size ∧ ∀ i r, t.get? i = some r → t.Sound i r := by
  cases hrange : rangeOf options.range (raw.size / Record.size) with
  | error failure =>
      obtain ⟨start, stop, hsome, houtside, rfl⟩ := rangeOf_eq_error_iff.mp hrange
      rw [build_of_rangeOf_eq_error hrange]
      refine ⟨⟨fun _ => ⟨start, stop, hsome, houtside⟩, fun _ => ⟨_, rfl⟩⟩, fun failure h => ?_,
        fun t h => nomatch h⟩
      cases h
      exact ⟨⟨start, stop, rfl⟩, rfl, rfl⟩
  | ok range =>
      obtain ⟨u, hu, -⟩ := exists_unresolved hrange
      have hresult : (build options raw).result = .ok u.resolved := by
        rw [build_eq_andThen, Trace.andThen_result_eq_ok_iff]
        exact ⟨u, hu, by rw [resolve_eq]⟩
      rw [hresult]
      refine ⟨⟨fun ⟨_, h⟩ => (nomatch h), fun houtside => ?_⟩, fun _ h => (nomatch h), fun t h => ?_⟩
      · obtain ⟨start, stop, hsome, houtside⟩ := houtside
        rw [rangeOf_eq_error_iff.mpr ⟨start, stop, hsome, houtside, rfl⟩] at hrange
        cases hrange
      · cases h
        obtain ⟨u', -, -, hresolved, -, hsize, hfresh⟩ := exists_fresh_of_build hresult
        rw [hresolved]
        refine ⟨by rw [size_resolved, hsize], fun i r hr => sound_of_get?_resolved hfresh ?_ hr⟩
        rw [hsize]
        exact (Nat.div_le_self ..).trans hword

/-! ## A file in a directory -/

open Content (filled recordBytes listBytes listEntryBytes extentBytes recordOf listOf listEntryOf extentAt
  parse_recordBytes)

/-- A file name of at most three letters. -/
def nameBytes (parent : UInt8) (letters : Bytes) : Bytes :=
  filled 16 [0x30, 0, 0, 0, 0x60] ++ filled 4 [66 + 2 * UInt8.ofNat letters.length] ++
    filled 4 [0x18] ++
    filled 72 (filled 0x40 [parent] ++ [UInt8.ofNat letters.length, 0] ++
      letters.flatMap fun c => [c, 0])

def nameAttribute (parent : UInt64) (units : UInt8) (name : String) : Attribute where
  header := ⟨.fileName, 0x60, false, 0, 0, 0, 0, none⟩
  residency := .resident ⟨66 + 2 * units.toUInt32, 0x18, 0⟩
  body := .fileName ⟨⟨parent, 0⟩, .none, 0, 0, 0, 0, units, .posix, name⟩

/-- A file in the directory that is the second record; its attribute list continues it in the third one.
That directory lies in one that does not exist, and in place of the last record there is something else. -/
def mixedRecords : List Bytes := [
  recordBytes (nameBytes 1 [0x61] ++ listBytes (listEntryBytes 0 0 ++ listEntryBytes 1 2)),
  recordBytes (nameBytes 9 [0x64]),
  recordBytes (extentBytes 1 1),
  filled Record.size [0x42, 0x41, 0x41, 0x44]]

def mixedFile : Record :=
  recordOf 0 [nameAttribute 1 1 "a", listOf [listEntryOf 0 0, listEntryOf 1 2]] none

def mixedDirectory : Record := recordOf 1 [nameAttribute 9 1 "d"] none

def mixedTable : Table := ⟨#[
  { mixedFile with parent := some 1, link := some 2 },
  mixedDirectory,
  recordOf 2 [extentAt 1 1] none,
  Record.blank 3 (RecordHeader.decode [0x42, 0x41, 0x41, 0x44])]⟩

theorem parse_mixedFile :
    Record.parse 0 (Buffer.ofList (recordBytes (nameBytes 1 [0x61] ++
      listBytes (listEntryBytes 0 0 ++ listEntryBytes 1 2)))) = mixedFile :=
  parse_recordBytes 0 (by decide +kernel)

theorem parse_mixedDirectory :
    Record.parse 1 (Buffer.ofList (recordBytes (nameBytes 9 [0x64]))) = mixedDirectory :=
  parse_recordBytes 1 (by decide +kernel)

theorem length_of_mem_mixedRecords : ∀ r ∈ mixedRecords, r.length = Record.size := by
  decide +kernel

theorem size_mixedRecords : (Buffer.ofList mixedRecords.flatten).size = 4 * Record.size := by
  rw [Buffer.size_ofList, Buffer.length_flatten length_of_mem_mixedRecords]
  rfl

theorem parse_mixedRecords :
    (mixedRecords.map Buffer.ofList).zipIdx.map
      (fun (raw, index) => Record.parse (UInt64.ofNat index) raw) =
    [mixedFile, mixedDirectory, recordOf 2 [extentAt 1 1] none,
      Record.blank 3 (RecordHeader.decode [0x42, 0x41, 0x41, 0x44])] := by
  have hextent : Record.parse 2 (Buffer.ofList (recordBytes (extentBytes 1 1))) =
      recordOf 2 [extentAt 1 1] none :=
    parse_recordBytes 2 (by decide +kernel)
  have hheader : Record.headerOf (Buffer.ofList (filled Record.size [0x42, 0x41, 0x41, 0x44])) =
      RecordHeader.decode [0x42, 0x41, 0x41, 0x44] := by
    rw [Record.headerOf_ofList]
    decide +kernel
  have hforeign : Record.parse 3 (Buffer.ofList (filled Record.size [0x42, 0x41, 0x41, 0x44])) =
      Record.blank 3 (RecordHeader.decode [0x42, 0x41, 0x41, 0x44]) := by
    rw [← hheader]
    exact Record.parse_of_foreign 3 (by rw [hheader]; decide +kernel)
  rw [← parse_mixedFile, ← parse_mixedDirectory, ← hextent, ← hforeign]
  rfl

theorem build_mixedRecords :
    (build ⟨none, none⟩ (Buffer.ofList mixedRecords.flatten)).result = .ok mixedTable := by
  rw [build_result_of_records length_of_mem_mixedRecords, parse_mixedRecords]
  exact congrArg Except.ok (by decide +kernel)

/-- Records up to number eight cannot be asked for.  In the table of all four the file has its directory
for a parent and the third record for a link, and the directory has no parent. -/
theorem build_gives_sound_table_mixed :
    (Buffer.ofList mixedRecords.flatten).size ≤ maxWord ∧
    (∃ failure, (build ⟨some (2, 9), none⟩ (Buffer.ofList mixedRecords.flatten)).result =
      .error failure) ∧
    (build ⟨none, none⟩ (Buffer.ofList mixedRecords.flatten)).result = .ok mixedTable ∧
    mixedTable.size = 4 ∧
    mixedTable.get? 0 = some { mixedFile with parent := some 1, link := some 2 } ∧
    mixedTable.get? 1 = some { mixedDirectory with parent := none, link := none } ∧
    (mixedFile.preferredName?.map (·.parent.record) = some 1 ∧
      mixedDirectory.preferredName?.map (·.parent.record) = some 9) ∧
    ∀ i r, mixedTable.get? i = some r → mixedTable.Sound i r := by
  have hword : (Buffer.ofList mixedRecords.flatten).size ≤ maxWord := by
    rw [size_mixedRecords]
    decide
  refine ⟨hword, ?_, build_mixedRecords, rfl, rfl, rfl, ⟨by decide +kernel, by decide +kernel⟩, ?_⟩
  · refine (build_gives_sound_table ⟨some (2, 9), none⟩ _ hword).1.mpr ⟨2, 9, rfl, Or.inr ?_⟩
    rw [size_mixedRecords]
    decide
  · exact ((build_gives_sound_table ⟨none, none⟩ _ hword).2.2 _ build_mixedRecords).2

end Table

end Ntfs
