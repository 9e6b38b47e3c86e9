import Ntfs.Proofs.Bytes.Window
import Ntfs.Table.Build

/-!
# Tables of given records

When nothing is loaded from a disk, building a table never fails, and its records are those that
stand in the buffer, one after the other, with links, parents and sizes filled in.
-/

namespace Ntfs

/-- A record without sector protection is read as it stands. -/
theorem Record.parse_of_unprotected (id : UInt64) {bytes : Bytes}
    (hvalid : (blank id (RecordHeader.decode (bytes.take RecordHeader.size))).isValid = true)
    (hcount : (RecordHeader.decode (bytes.take RecordHeader.size)).arrayCount.toNat < 2) :
    parse id (Buffer.ofList bytes) =
      let header := RecordHeader.decode (bytes.take RecordHeader.size)
      let attributes := attributesFrom header.attributesOffset.toNat
        ((bytes.take size).drop header.attributesOffset.toNat)
      { blank id header with
        attributes := attributes.value
        warnings := attributes.notes.map (Warning.ofNote id) } := by
  have hheader : (Buffer.ofList bytes).window 0 RecordHeader.size =
      bytes.take RecordHeader.size := by
    rw [Buffer.window_eq, Buffer.toList_ofList, List.drop_zero]
  have hlength : ∀ start, ((bytes.take size).drop start).length ≤ size := by
    intro start
    rw [List.length_drop, List.length_take]
    omega
  have hrestore : ∀ buf start, Fixup.restore buf start
      (RecordHeader.decode (bytes.take RecordHeader.size)).arrayCount.toNat = .ok buf :=
    fun buf start => if_pos hcount
  rw [parse, hheader, if_pos hvalid]
  simp only [blank, hrestore, Fixup.settled, Buffer.window_eq, Buffer.toList_slice,
    Buffer.toList_ofList, List.drop_zero, List.nil_append, List.take_of_length_le (hlength _)]

namespace Table

/-- Records of full size, one after the other, are found again as they were put there. -/
theorem stored_flatten {records : List Bytes} (hsize : ∀ r ∈ records, r.length = Record.size) :
    stored (Buffer.ofList records.flatten) = records.map Buffer.ofList := by
  have hcount : (Buffer.ofList records.flatten).size / Record.size = records.length := by
    rw [Buffer.size_ofList, Buffer.length_flatten hsize]
    exact Nat.mul_div_cancel _ (by decide)
  rw [stored, hcount]
  exact Buffer.map_slice_flatten hsize

theorem parseRecords_whole (records : List Buffer) :
    parseRecords (0, records.length) records =
      records.zipIdx.map fun (raw, index) => Record.parse (UInt64.ofNat index) raw := by
  refine List.map_congr_left fun (raw, index) hmem => ?_
  have hlt : index < records.length := by
    have := List.snd_lt_of_mem_zipIdx hmem
    omega
  exact congrArg (Record.parse (UInt64.ofNat index)) (if_pos ⟨Nat.zero_le _, hlt⟩)

/-- A table that takes nothing from a disk is built from the records in the buffer alone. -/
theorem build_result_of_records {records : List Bytes}
    (hsize : ∀ r ∈ records, r.length = Record.size) :
    (build ⟨none, none⟩ (Buffer.ofList records.flatten)).result =
      .ok (Table.mk (((records.map Buffer.ofList).zipIdx.map fun (raw, index) =>
        Record.parse (UInt64.ofNat index) raw).toArray)).linked.1.withParents.1.withSizes.1 := by
  rw [← stored_flatten hsize, ← parseRecords_whole]
  rfl

/-- A table of one record is built from its bytes. -/
theorem build_result_of_record {record : Bytes} (hsize : record.length = Record.size) :
    (build ⟨none, none⟩ (Buffer.ofList record)).result =
      .ok (Table.mk #[Record.parse 0 (Buffer.ofList record)]).linked.1.withParents.1.withSizes.1 := by
  have hone : ∀ r ∈ [record], r.length = Record.size := by
    intro r hr
    rw [List.mem_singleton.mp hr, hsize]
  have hbuilt := build_result_of_records hone
  rw [List.flatten_singleton] at hbuilt
  exact hbuilt

end Table

end Ntfs
