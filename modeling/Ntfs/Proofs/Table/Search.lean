import Ntfs.Proofs.FileName.Extension
import Ntfs.Proofs.Table.Invariant
import Ntfs.Table.Search

/-!
# Records found by extension

An extension is asked for with or without dots in front of it.  `withExtension_finds` says which records
of a table are found: in the order of their numbers, those whose name ends in the extension, as long as
there is no dot inside it.  With a dot inside nothing is found, whatever the names are, and so a file whose
name does end in it is missed (`withExtension_misses`).
-/

namespace Ntfs

/-- The name shown for the record ends in an extension. -/
def Record.HasExtension (r : Record) (extension : String) : Prop :=
  ∃ f ∈ r.fileNames.argmin (·.space.rank), EndsIn f.name extension

namespace Table

/-- The extension that a text asks for: what follows its leading dots. -/
def askedFor (text : String) : String := String.ofList (text.toList.dropWhile (· == '.'))

/-- For a text without an inner dot, those records with data are found whose shown name ends in it; for any
other text there are none. -/
theorem mem_withExtension_iff {t : Table} {text : String} (hne : askedFor text ≠ "") {r : Record} :
    r ∈ t.withExtension text ↔
      r ∈ t.records ∧ r.isValid = true ∧ '.' ∉ (askedFor text).toList ∧
        r.HasExtension (askedFor text) := by
  have hshown : (r.preferredName?.bind (·.extension?)) = some (Lowercase.lower (askedFor text)) ↔
      '.' ∉ (askedFor text).toList ∧ r.HasExtension (askedFor text) := by
    rw [Option.bind_eq_some_iff, Record.preferredName?, FileName.preferred?_eq_argmin,
      Record.HasExtension]
    simp only [FileName.extension?_eq_lower_iff hne, Option.mem_def]
    constructor
    · rintro ⟨f, hf, hfree, hends⟩
      exact ⟨hfree, f, hf, hends⟩
    · rintro ⟨hfree, f, hf, hends⟩
      exact ⟨f, hf, hfree, hends⟩
  rw [withExtension, List.mem_filter, beq_iff_eq, ← askedFor, hshown, validRecords, List.mem_filter,
    Array.mem_toList_iff, and_assoc]

/-- Nothing is found for an extension with a dot inside. -/
theorem withExtension_eq_nil {t : Table} {text : String} (hne : askedFor text ≠ "")
    (hdot : '.' ∈ (askedFor text).toList) : t.withExtension text = [] := by
  refine List.eq_nil_iff_forall_not_mem.mpr fun r hr => ?_
  exact ((mem_withExtension_iff hne).mp hr).2.2.1 hdot

/-- The numbers of the records of a table rise. -/
theorem pairwise_id_of_build {options : TableOptions} {raw : Buffer} (hword : raw.size ≤ maxWord)
    {t : Table} (hbuilt : (build options raw).result = .ok t) :
    t.records.toList.Pairwise fun a b => a.id < b.id := by
  have hid (i : Nat) (hi : i < t.records.toList.length) : t.records.toList[i].id.toNat = i := by
    obtain ⟨r, hr, hbears⟩ := exists_record_of_build hword hbuilt hi
    obtain ⟨_, rfl⟩ := Array.getElem?_eq_some_iff.mp hr
    exact hbears
  refine List.pairwise_iff_getElem.mpr fun i j hi hj hlt => ?_
  rw [UInt64.lt_iff_toNat_lt, hid i hi, hid j hj]
  exact hlt

/-- For an extension without a dot inside, the records found are those that carry data and whose name ends
in it, each of them once and in the order of their numbers.  For one with a dot inside there are none. -/
theorem withExtension_finds (options : TableOptions) (raw : Buffer) (hword : raw.size ≤ maxWord)
    (t : Table) (hbuilt : (build options raw).result = .ok t) (text : String)
    (hne : askedFor text ≠ "") :
    (t.withExtension text).Pairwise (fun a b => a.id < b.id) ∧
    ('.' ∉ (askedFor text).toList → ∀ r, r ∈ t.withExtension text ↔
      r ∈ t.records ∧ r.isValid = true ∧ r.HasExtension (askedFor text)) ∧
    ('.' ∈ (askedFor text).toList → t.withExtension text = []) := by
  refine ⟨?_, fun hfree r => ?_, withExtension_eq_nil hne⟩
  · exact ((pairwise_id_of_build hword hbuilt).filter _).filter _
  · rw [mem_withExtension_iff hne]
    constructor
    · rintro ⟨hmem, hvalid, -, hends⟩
      exact ⟨hmem, hvalid, hends⟩
    · rintro ⟨hmem, hvalid, hends⟩
      exact ⟨hmem, hvalid, hfree, hends⟩

open Content (filled recordBytes recordOf parse_recordBytes)

/-- A file name of at most seven letters in the directory of record 0. -/
def dottedNameBytes (letters : Bytes) : Bytes :=
  filled 16 [0x30, 0, 0, 0, 0x68] ++ filled 4 [66 + 2 * UInt8.ofNat letters.length] ++
    filled 4 [0x18] ++
    filled 80 (filled 0x40 [] ++ [UInt8.ofNat letters.length, 0] ++
      letters.flatMap fun c => [c, 0])

/-- The files `a.b.c`, `.c` and `x.C`. -/
def dottedRecords : List Bytes := [
  recordBytes (dottedNameBytes [0x61, 0x2E, 0x62, 0x2E, 0x63]),
  recordBytes (dottedNameBytes [0x2E, 0x63]),
  recordBytes (dottedNameBytes [0x78, 0x2E, 0x43])]

def dottedName (units : UInt8) (name : String) : Attribute where
  header := ⟨.fileName, 0x68, false, 0, 0, 0, 0, none⟩
  residency := .resident ⟨66 + 2 * units.toUInt32, 0x18, 0⟩
  body := .fileName ⟨⟨0, 0⟩, .none, 0, 0, 0, 0, units, .posix, name⟩

def dottedTable : Table := ⟨#[
  { recordOf 0 [dottedName 5 "a.b.c"] none with parent := some 0 },
  { recordOf 1 [dottedName 2 ".c"] none with parent := some 0 },
  { recordOf 2 [dottedName 3 "x.C"] none with parent := some 0 }]⟩

theorem build_dottedRecords :
    (Buffer.ofList dottedRecords.flatten).size ≤ maxWord ∧
    (build ⟨none, none⟩ (Buffer.ofList dottedRecords.flatten)).result = .ok dottedTable := by
  have hsize : ∀ r ∈ dottedRecords, r.length = Record.size := by decide +kernel
  have hfirst : Record.parse 0 (Buffer.ofList (recordBytes
      (dottedNameBytes [0x61, 0x2E, 0x62, 0x2E, 0x63]))) = recordOf 0 [dottedName 5 "a.b.c"] none :=
    parse_recordBytes 0 (by decide +kernel)
  have hsecond : Record.parse 1 (Buffer.ofList (recordBytes (dottedNameBytes [0x2E, 0x63]))) =
      recordOf 1 [dottedName 2 ".c"] none := parse_recordBytes 1 (by decide +kernel)
  have hlast : Record.parse 2 (Buffer.ofList (recordBytes (dottedNameBytes [0x78, 0x2E, 0x43]))) =
      recordOf 2 [dottedName 3 "x.C"] none := parse_recordBytes 2 (by decide +kernel)
  refine ⟨?_, ?_⟩
  · rw [Buffer.size_ofList, Buffer.length_flatten hsize]
    decide
  · rw [build_result_of_records hsize]
    change Except.ok (Table.mk [Record.parse 0 _, Record.parse 1 _, Record.parse 2 _].toArray
      ).linked.1.withParents.1.withSizes.1 = _
    rw [hfirst, hsecond, hlast]
    exact congrArg Except.ok (by decide +kernel)

theorem hasExtension_dotted {units : UInt8} {name extension : String} (h : EndsIn name extension) :
    (recordOf 0 [dottedName units name] none).HasExtension extension := ⟨_, rfl, h⟩

/-- A capital letter and two dots in front of it make no difference: `a.b.c` is found, and so is `x.C`.
The file `.c` has nothing in front of its dot. -/
theorem withExtension_finds_dotted :
    (Buffer.ofList dottedRecords.flatten).size ≤ maxWord ∧
    (build ⟨none, none⟩ (Buffer.ofList dottedRecords.flatten)).result = .ok dottedTable ∧
    askedFor "..C" = "C" ∧ askedFor "b.c" = "b.c" ∧
    dottedTable.records[0] ∈ dottedTable.withExtension "..C" ∧
    (dottedTable.withExtension "..C").map (·.id) = [0, 2] ∧ dottedTable.withExtension "b.c" = [] := by
  obtain ⟨hword, hbuilt⟩ := build_dottedRecords
  have hone : askedFor "..C" = "C" := rfl
  have htwo : askedFor "b.c" = "b.c" := rfl
  obtain ⟨-, hfound, -⟩ := withExtension_finds _ _ hword _ hbuilt "..C" (by rw [hone]; decide)
  obtain ⟨-, -, hmissed⟩ := withExtension_finds _ _ hword _ hbuilt "b.c" (by rw [htwo]; decide)
  refine ⟨hword, hbuilt, hone, htwo, ?_, rfl, hmissed (by rw [htwo]; decide)⟩
  rw [hfound (by rw [hone]; decide), hone]
  have hends : EndsIn "a.b.c" "C" := ⟨"a.b", "c", by decide, by decide, rfl⟩
  exact ⟨Array.getElem_mem _, rfl, hasExtension_dotted hends⟩

/-- The file `a.b.c` ends in `.b.c`, and it is not found. -/
theorem withExtension_misses :
    ¬ ∀ (options : TableOptions) (raw : Buffer) (t : Table), raw.size ≤ maxWord →
      (build options raw).result = .ok t → ∀ text, askedFor text ≠ "" → ∀ r,
        (r ∈ t.withExtension text ↔
          r ∈ t.records ∧ r.isValid = true ∧ r.HasExtension (askedFor text)) := by
  intro hclaim
  have hasked : askedFor "b.c" = "b.c" := rfl
  have hne : askedFor "b.c" ≠ "" := by rw [hasked]; decide
  have hends : EndsIn "a.b.c" "b.c" := ⟨"a", "b.c", by decide, by decide, rfl⟩
  have hfound := (hclaim _ _ _ build_dottedRecords.1 build_dottedRecords.2 "b.c" hne
    dottedTable.records[0]).mpr ⟨Array.getElem_mem _, rfl, hasked ▸ hasExtension_dotted hends⟩
  rw [withExtension_eq_nil hne (by rw [hasked]; decide)] at hfound
  cases hfound

end Table

end Ntfs
