import Ntfs.Proofs.Table.Invariant

/-!
# Building a part of a table

With a range, only the records in it are parsed, but every record keeps its place.  What is left out
is left out everywhere: no link, parent, size, load from the disk or warning comes from it.  So the
table is the one of a buffer in which the other records hold nothing but zeros
(`build_range_eq_zeroOutside`).
-/

namespace Ntfs

namespace Record

def zeros : Buffer := .ofList (List.replicate size 0)

theorem headerOf_empty : headerOf .empty = RecordHeader.decode [] := by
  rw [headerOf, Buffer.window_eq, Buffer.toList_empty, List.drop_nil, List.take_nil]

/-- A record of zeros is read like one of which nothing was stored. -/
theorem parse_zeros (id : UInt64) : parse id zeros = parse id .empty := by
  have hzeros : headerOf zeros = RecordHeader.decode [] := by
    rw [headerOf, zeros, Buffer.window_eq, Buffer.toList_ofList]
    decide +kernel
  have hforeign : (RecordHeader.decode []).signature ≠ RecordHeader.fileSignature := by decide
  rw [parse_of_foreign id (hzeros ▸ hforeign), parse_of_foreign id (headerOf_empty ▸ hforeign),
    hzeros, headerOf_empty]

end Record

namespace Table

def recordAt (raw : Buffer) (index : Nat) : Buffer :=
  raw.slice (index * Record.size) ((index + 1) * Record.size)

/-- The same bytes with zeros for every record whose number does not lie in the range.  Bytes behind
the last whole record stay. -/
def zeroOutside (range : Nat × Nat) (raw : Buffer) : Buffer :=
  .ofList (raw.toList.mapIdx fun position byte =>
    let index := position / Record.size
    if index < raw.size / Record.size ∧ ¬ (range.1 ≤ index ∧ index < range.2) then 0 else byte)

variable {range : Nat × Nat} {source : Option (Disk × Geometry)} {raw : Buffer} {index : Nat}

@[simp]
theorem size_zeroOutside (range : Nat × Nat) (raw : Buffer) :
    (zeroOutside range raw).size = raw.size := by
  rw [zeroOutside, ← Buffer.length_toList, Buffer.toList_ofList, List.length_mapIdx,
    Buffer.length_toList]

/-- The bytes of a record, counted from its first. -/
theorem getElem?_recordAt (raw : Buffer) (index i : Nat) :
    (recordAt raw index).toList[i]? =
      if i < Record.size then raw.toList[index * Record.size + i]? else none := by
  rw [recordAt, Buffer.toList_slice, List.getElem?_drop, List.getElem?_take, Nat.succ_mul]
  simp only [Nat.add_lt_add_iff_left]

theorem div_size_of_lt (index : Nat) {i : Nat} (h : i < Record.size) :
    (index * Record.size + i) / Record.size = index := by
  rw [Nat.mul_comm, Nat.mul_add_div (by decide), Nat.div_eq_of_lt h, Nat.add_zero]

/-- Records in the range stay as they are. -/
theorem recordAt_zeroOutside_of_mem (h : range.1 ≤ index ∧ index < range.2) :
    recordAt (zeroOutside range raw) index = recordAt raw index := by
  apply Buffer.ext
  apply List.ext_getElem?
  intro i
  rw [getElem?_recordAt, getElem?_recordAt]
  split
  · rename_i hi
    rw [zeroOutside, Buffer.toList_ofList, List.getElem?_mapIdx]
    simp only [div_size_of_lt index hi, h, and_self, not_true_eq_false, and_false, if_false,
      Option.map_id']
  · rfl

/-- All other records become zeros. -/
theorem recordAt_zeroOutside_of_not_mem (hinside : index < raw.size / Record.size)
    (h : ¬ (range.1 ≤ index ∧ index < range.2)) :
    recordAt (zeroOutside range raw) index = Record.zeros := by
  apply Buffer.ext
  apply List.ext_getElem?
  intro i
  rw [getElem?_recordAt, Record.zeros, Buffer.toList_ofList, List.getElem?_replicate]
  split
  · rename_i hi
    have hexists : index * Record.size + i < raw.toList.length := by
      rw [Buffer.length_toList]
      calc index * Record.size + i
          < (index + 1) * Record.size := by rw [Nat.succ_mul]; exact Nat.add_lt_add_left hi _
        _ ≤ raw.size / Record.size * Record.size := Nat.mul_le_mul_right _ hinside
        _ ≤ raw.size := Nat.div_mul_le_self _ _
    rw [zeroOutside, Buffer.toList_ofList, List.getElem?_mapIdx, List.getElem?_eq_getElem hexists]
    simp only [div_size_of_lt index hi, hinside, h, not_false_eq_true, and_self, if_true,
      Option.map_some]
  · rfl

/-- Each record is parsed from the bytes at its place, or from none. -/
theorem parseRecords_stored (range : Nat × Nat) (raw : Buffer) :
    parseRecords range (stored raw) =
      (List.range (raw.size / Record.size)).map fun index => Record.parse (UInt64.ofNat index)
        (if range.1 ≤ index ∧ index < range.2 then recordAt raw index else .empty) := by
  apply List.ext_getElem
  · rw [length_parseRecords, length_stored, List.length_map, List.length_range]
  · intro index _ _
    simp only [parseRecords, stored, List.getElem_map, List.getElem_zipIdx, List.getElem_range,
      Nat.zero_add, recordAt]

/-- Parsing the records in a range is parsing all records once the others are zeroed. -/
theorem parseRecords_zeroOutside (range : Nat × Nat) (raw : Buffer) :
    parseRecords (0, raw.size / Record.size) (stored (zeroOutside range raw)) =
      parseRecords range (stored raw) := by
  rw [parseRecords_stored, parseRecords_stored, size_zeroOutside]
  apply List.map_congr_left
  intro index hmem
  have hinside : index < raw.size / Record.size := List.mem_range.mp hmem
  rw [if_pos ⟨Nat.zero_le _, hinside⟩]
  by_cases h : range.1 ≤ index ∧ index < range.2
  · rw [if_pos h, recordAt_zeroOutside_of_mem h]
  · rw [if_neg h, recordAt_zeroOutside_of_not_mem hinside h, Record.parse_zeros]

theorem rangeOf_of_succeeds (h : (build ⟨some range, source⟩ raw).Succeeds) :
    rangeOf (some range) (raw.size / Record.size) = .ok range := by
  cases hrange : rangeOf (some range) (raw.size / Record.size) with
  | error failure =>
      obtain ⟨t, ht⟩ := h
      rw [build_of_rangeOf_eq_error hrange] at ht
      cases ht
  | ok found =>
      rw [rangeOf] at hrange
      split at hrange
      · cases hrange
      · exact hrange.symm

/-- Building the records in a range gives the same table, with the same warnings in the same order
and the same requests to the disk, as building all records of a buffer in which the others are
zeroed. -/
theorem build_range_eq_zeroOutside (range : Nat × Nat) (source : Option (Disk × Geometry))
    (raw : Buffer) (h : (build ⟨some range, source⟩ raw).Succeeds) :
    build ⟨some range, source⟩ raw = build ⟨none, source⟩ (zeroOutside range raw) := by
  have hwhole : rangeOf none ((zeroOutside range raw).size / Record.size) =
      .ok (0, raw.size / Record.size) := by
    rw [size_zeroOutside, rangeOf]
  rw [build_of_rangeOf_eq_ok (rangeOf_of_succeeds h), build_of_rangeOf_eq_ok hwhole,
    parseRecords_zeroOutside]

/-! ## The front of a table -/

open Content (extentAt)

/-- The first two of the four records, and nothing of what the others hold. -/
def frontTable : Table := ⟨#[
  { mixedFile with parent := some 1, link := some 2 },
  mixedDirectory,
  Record.blank 2 (RecordHeader.decode []),
  Record.blank 3 (RecordHeader.decode [])]⟩

theorem parseRecords_mixedRecords :
    parseRecords (0, 2) (mixedRecords.map Buffer.ofList) = [mixedFile, mixedDirectory,
      Record.blank 2 (RecordHeader.decode []), Record.blank 3 (RecordHeader.decode [])] := by
  have hheader : Record.headerOf .empty = RecordHeader.decode [] := Record.headerOf_empty
  have hforeign : (Record.headerOf .empty).signature ≠ RecordHeader.fileSignature := by
    rw [hheader]
    decide
  rw [← hheader, ← Record.parse_of_foreign 2 hforeign, ← Record.parse_of_foreign 3 hforeign,
    ← parse_mixedFile, ← parse_mixedDirectory]
  rfl

theorem build_front (source : Option (Disk × Geometry)) :
    (build ⟨some (0, 2), source⟩ (Buffer.ofList mixedRecords.flatten)).result = .ok frontTable := by
  have hrange : rangeOf (some (0, 2))
      ((Buffer.ofList mixedRecords.flatten).size / Record.size) = .ok (0, 2) := by
    rw [size_mixedRecords]
    rfl
  have hparsed : parseRecords (0, 2) (stored (Buffer.ofList mixedRecords.flatten)) =
      [mixedFile, mixedDirectory, Record.blank 2 (RecordHeader.decode []),
        Record.blank 3 (RecordHeader.decode [])] := by
    rw [stored_flatten length_of_mem_mixedRecords, parseRecords_mixedRecords]
  have hkept : ∀ r ∈ [mixedFile, mixedDirectory, Record.blank 2 (RecordHeader.decode []),
      Record.blank 3 (RecordHeader.decode [])], ∀ a ∈ r.attributes, needsLoading a = false := by
    decide +kernel
  rw [← hparsed] at hkept
  have hbuilt : (build ⟨some (0, 2), source⟩ (Buffer.ofList mixedRecords.flatten)).result = _ :=
    build_result_of_kept hrange hkept
  rw [hbuilt, hparsed]
  exact congrArg Except.ok (by decide +kernel)

/-- With only the first two of the four records, the file still has its parent and its link; the record that
the link names is blank, as it is when it is zeroed. -/
theorem build_range_eq_zeroOutside_mixed :
    (build ⟨some (0, 2), some (.ofBuffer (.ofList [0, 0xBB, 0xAA]), ⟨0, 1, 1⟩)⟩
      (.ofList mixedRecords.flatten)).Succeeds ∧
    (build ⟨some (0, 2), some (.ofBuffer (.ofList [0, 0xBB, 0xAA]), ⟨0, 1, 1⟩)⟩
      (.ofList mixedRecords.flatten)).result = .ok frontTable ∧
    (build ⟨none, some (.ofBuffer (.ofList [0, 0xBB, 0xAA]), ⟨0, 1, 1⟩)⟩
      (zeroOutside (0, 2) (.ofList mixedRecords.flatten))).result = .ok frontTable ∧
    (frontTable.get? 0).map (fun r => (r.parent, r.link)) = some (some 1, some 2) ∧
    (frontTable.get? 2).map (·.attributes) = some [] ∧
    (mixedTable.get? 2).map (·.attributes) = some [extentAt 1 1] := by
  have hbuilt := build_front (some (.ofBuffer (.ofList [0, 0xBB, 0xAA]), ⟨0, 1, 1⟩))
  have hsame := build_range_eq_zeroOutside (0, 2) _ _ ⟨_, hbuilt⟩
  refine ⟨⟨_, hbuilt⟩, hbuilt, ?_, rfl, rfl, rfl⟩
  rw [← hsame]
  exact hbuilt

end Table

end Ntfs
