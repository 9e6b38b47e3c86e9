import Ntfs.Proofs.Content.Placement
import Ntfs.Proofs.Content.Warnings
import Ntfs.Proofs.Table.Load
import Ntfs.Proofs.Table.Opening
import Ntfs.Proofs.Table.Trail

/-!
# Sizes from indexes

The size of a file that has no content of its own in the table is one that a directory keeps beside its
name.  Of all such entries, those in roots before those in allocations, the last one for a record stays,
and every one for a file outside the table is reported, neither more nor less.  Nothing that comes
before changes what entries say, so the finished table can be asked for them (`build_sizes`).
-/

namespace Ntfs

open Trace (Warns)

def AttributeBody.rootEntries : AttributeBody → List IndexEntry
  | .indexRoot root => root.entries
  | _ => []

def AttributeBody.allocationEntries : AttributeBody → List IndexEntry
  | .indexAllocation allocation => allocation.entries
  | _ => []

def Warning.isStray : Warning → Bool
  | .dangling _ _ message => message == "index entry points outside the table"
  | .corruption .. | .outOfRange .. => false

theorem Warning.isStray_of_isDangling {w : Warning} (h : w.isDangling = false) :
    w.isStray = false := by
  cases w with
  | dangling record target message => cases h
  | corruption record message => rfl
  | outOfRange record offset message => rfl

theorem IndexedSize.isStray_stray (s : IndexedSize) : s.stray.isStray = true := by
  rw [stray, Warning.isStray, beq_self_eq_true]

theorem IndexedSize.ofRoots_eq (r : Record) :
    ofRoots r = r.attributes.flatMap fun a => ofEntries r.id a.body.rootEntries := by
  rw [ofRoots]
  congr 1
  funext a
  cases a.body <;> rfl

theorem IndexedSize.ofAllocations_eq (r : Record) :
    ofAllocations r = r.attributes.flatMap fun a => ofEntries r.id a.body.allocationEntries := by
  rw [ofAllocations]
  congr 1
  funext a
  cases a.body <;> rfl

namespace Table

variable {options : TableOptions} {raw : Buffer}

/-! ## What entries say -/

/-- The sizes beside the names in some entries of the attributes, by record, attribute and entry. -/
def sizesAmong (t : Table) (entries : AttributeBody → List IndexEntry) : List IndexedSize :=
  (List.range t.size).flatMap fun i =>
    (((t.get? i).map Record.attributes).getD []).flatMap fun a =>
      IndexedSize.ofEntries (UInt64.ofNat i) (entries a.body)

/-- The sizes that the indexes of a table give: those in roots before those in allocations. -/
def entrySizes (t : Table) : List IndexedSize :=
  t.sizesAmong AttributeBody.rootEntries ++ t.sizesAmong AttributeBody.allocationEntries

/-- Only the attributes count. -/
theorem entrySizes_congr {t u : Table} (hsize : t.size = u.size)
    (hsame : ∀ i, (t.get? i).map Record.attributes = (u.get? i).map Record.attributes) :
    t.entrySizes = u.entrySizes := by
  simp only [entrySizes, sizesAmong, hsize, hsame]

/-- What is gathered record by record is gathered by number, when records bear the numbers of their
places. -/
theorem flatMap_ofEntries {t : Table} (hids : ∀ i r, t.get? i = some r → r.id = UInt64.ofNat i)
    (entries : AttributeBody → List IndexEntry) :
    (t.records.toList.flatMap fun r =>
      r.attributes.flatMap fun a => IndexedSize.ofEntries r.id (entries a.body)) =
      t.sizesAmong entries := by
  have hplaced := t.flatMap_zipIdx
    (f := fun placed => placed.1.attributes.flatMap fun a =>
      IndexedSize.ofEntries placed.1.id (entries a.body))
    (g := fun i => (((t.get? i).map Record.attributes).getD []).flatMap fun a =>
      IndexedSize.ofEntries (UInt64.ofNat i) (entries a.body))
    fun i r hr => by rw [hids i r hr, hr, Option.map_some, Option.getD_some]
  rw [sizesAmong, ← hplaced]
  conv_lhs => rw [← List.zipIdx_map_fst 0 t.records.toList, List.flatMap_map]

/-- Sizes are applied in the order of the entries. -/
theorem indexedSizes_eq {t : Table} (hids : ∀ i r, t.get? i = some r → r.id = UInt64.ofNat i) :
    t.indexedSizes = t.entrySizes := by
  rw [indexedSizes, funext IndexedSize.ofRoots_eq, funext IndexedSize.ofAllocations_eq,
    flatMap_ofEntries hids, flatMap_ofEntries hids, entrySizes]

/-! ## What a build reports -/

theorem isDangling_of_mem_parse {id : UInt64} {raw : Buffer} :
    ∀ w ∈ (Record.parse id raw).warnings, w.isDangling = false := by
  unfold Record.parse
  dsimp only
  split
  · intro w hw
    rcases List.mem_append.mp hw with hw | hw
    · split at hw
      · cases hw
      · rw [List.mem_singleton.mp hw]
        rfl
    · obtain ⟨n, -, rfl⟩ := List.mem_map.mp hw
      rfl
  · intro w hw
    cases hw

theorem loadAttribute_warns (disk : Disk) (g : Geometry) (r : Record) (a : Attribute) :
    (loadAttribute disk g r a).Warns fun w => w.isDangling = false := by
  unfold loadAttribute
  split
  · refine Warns.andThen ?_ fun outcome => ?_
    · intro w hw
      obtain ⟨offset, message, rfl⟩ := Content.walk_warns disk g r.id a.contentSize.toNat a w hw
      rfl
    · cases outcome with
      | error failure =>
          exact Warns.andThen (Trace.warns_warn rfl) fun _ => Trace.warns_done _
      | ok content =>
          refine Warns.andThen (Trace.warns_warnAll fun w hw => ?_) fun _ => Trace.warns_done _
          obtain ⟨n, -, rfl⟩ := List.mem_map.mp hw
          rfl
  · exact Trace.warns_done _

/-- Loading warns of no record that does not exist. -/
theorem loadRecords_warns (source : Option (Disk × Geometry)) (records : List Record) :
    (loadRecords source records).Warns fun w => w.isDangling = false := by
  cases source with
  | none => exact Trace.warns_done _
  | some source =>
      exact Warns.mapM fun r _ =>
        (Warns.mapM fun a _ => loadAttribute_warns source.1 source.2 r a).andThen fun _ =>
          Trace.warns_done _

/-- Parsing and loading do not look at references. -/
theorem unresolved_warns : (unresolved options raw).Warns fun w => w.isDangling = false := by
  unfold unresolved
  refine Warns.andThen (Trace.warns_of_warnings_eq_nil rfl) fun range => ?_
  refine (Trace.warns_warnAll fun w hw => ?_).andThen fun _ => ?_
  · obtain ⟨r, hr, hw⟩ := List.mem_flatMap.mp hw
    obtain ⟨entry, -, rfl⟩ := List.mem_map.mp hr
    exact isDangling_of_mem_parse w hw
  · exact (loadRecords_warns _ _).andThen fun _ => Trace.warns_done _

/-- The warnings on links are about no index entry. -/
theorem isStray_of_mem_linked {t : Table} : ∀ w ∈ t.linked.2, w.isStray = false := by
  intro w hw
  rw [warnings_linked] at hw
  obtain ⟨step, -, hw⟩ := List.mem_flatMap.mp hw
  cases step with
  | dangle base target =>
      rw [List.mem_singleton.mp hw]
      rfl
  | propose base source target =>
      rw [warnings_propose, Option.mem_toList] at hw
      exact Warning.isStray_of_isDangling (isDangling_of_conflict? hw)

theorem isStray_of_mem_withParents {t : Table} : ∀ w ∈ t.withParents.2, w.isStray = false := by
  intro w hw
  obtain ⟨changed, hchanged, hw⟩ := List.mem_flatMap.mp hw
  obtain ⟨r, -, rfl⟩ := List.mem_map.mp hchanged
  unfold parentOf at hw
  split at hw
  · cases hw
  · dsimp only at hw
    split at hw
    · cases hw
    · rw [List.mem_singleton.mp hw]
      rfl

/-- Of the warnings of a build, those that applying sizes raised are left. -/
theorem filter_isStray_build {u : Table} (hu : (unresolved options raw).result = .ok u) :
    (build options raw).warnings.filter Warning.isStray =
      u.linked.1.withParents.1.withSizes.2.filter Warning.isStray := by
  have hnone {ws : List Warning} (h : ∀ w ∈ ws, w.isStray = false) :
      ws.filter Warning.isStray = [] := List.filter_eq_nil_iff.mpr fun w hw => by simp [h w hw]
  rw [warnings_build hu, List.filter_append, List.filter_append, List.filter_append,
    hnone fun w hw => Warning.isStray_of_isDangling (unresolved_warns w hw),
    hnone isStray_of_mem_linked, hnone isStray_of_mem_withParents, List.nil_append, List.nil_append,
    List.nil_append]

/-! ## Sizes of a built table -/

/-- Of all sizes that the indexes of a built table give, those in roots before those in allocations, the
last one for a record stays, and each one for a file outside the table is reported.  The size of a file
is the one that stayed, unless a record of its chain opens its content; then the first of these gives
it. -/
theorem build_sizes {t : Table} (h : (build options raw).result = .ok t) :
    (∀ i r, t.get? i = some r → r.derivedSize = lastSize? t.entrySizes i) ∧
    (build options raw).warnings.filter Warning.isStray =
      (t.entrySizes.filter fun s => decide (t.size ≤ s.file.toNat)).map IndexedSize.stray ∧
    (∀ id < t.size, (∀ c ∈ t.chain id, ∀ a, ¬ t.Opens c a) →
      t.logicalSize? id = lastSize? t.entrySizes id) ∧
    ∀ id before c after a, t.chain id = before ++ c :: after → t.Opens c a →
      (∀ b ∈ before, ∀ a', ¬ t.Opens b a') → t.logicalSize? id = some a.contentSize := by
  obtain ⟨u, -, hu, rfl, -, -, hfresh⟩ := exists_fresh_of_build h
  have hsizes : u.linked.1.withParents.1.indexedSizes = u.resolved.entrySizes := by
    rw [indexedSizes_eq, entrySizes_congr]
    · rw [size_withParents_linked, size_resolved]
    · intro i
      rw [attributes_resolved, get?_withParents_linked, Option.map_map]
      rfl
    · intro i r hr
      rw [get?_withParents_linked, Option.map_eq_some_iff] at hr
      obtain ⟨r, hr, rfl⟩ := hr
      exact (hfresh i r hr).id_eq
  have hderived : ∀ i r, u.resolved.get? i = some r →
      r.derivedSize = lastSize? u.resolved.entrySizes i := by
    intro i r hr
    rw [get?_resolved, Option.map_eq_some_iff] at hr
    obtain ⟨r, hr, rfl⟩ := hr
    rw [← hsizes, (hfresh i r hr).derivedSize_eq, Option.or_none]
  refine ⟨hderived, ?_, fun id hid hnone => ?_, fun id before c after a hchain ha hbefore =>
    logicalSize?_of_opens hchain ha hbefore⟩
  · rw [filter_isStray_build hu, withSizes, warnings_applySizes, hsizes, size_withParents_linked,
      size_resolved, List.filter_eq_self]
    intro w hw
    obtain ⟨s, -, rfl⟩ := List.mem_map.mp hw
    exact s.isStray_stray
  · have hr : u.resolved.get? id = some u.resolved.records[id] := Array.getElem?_eq_getElem hid
    rw [logicalSize?_of_not_opens hnone, hr, Option.bind_some, hderived id _ hr]

/-! ## Three directories -/

open Content (extentAt extentBytes filled recordBytes recordOf parse_recordBytes)

/-- A node with an entry for a file that has an empty name. -/
def nodeBytes (record size : UInt8) : Bytes :=
  filled 4 [0x10] ++ filled 12 [0x68] ++
    filled 0x58 (filled 8 [record] ++ filled 0x38 [0x58, 0, 0x42] ++ [size])

def rootBytes (record size : UInt8) : Bytes :=
  filled 16 [0x90, 0, 0, 0, 0x90] ++ [0x78, 0, 0, 0, 0x18, 0, 0, 0] ++ filled 16 [0x30] ++
    nodeBytes record size

/-- An allocation that stands in its record, with the name that those of directories have. -/
def allocationBytes (record size : UInt8) : Bytes :=
  filled 8 [0xA0, 0, 0, 0, 0x88] ++ filled 8 [0, 4, 0x18] ++ [0x68, 0, 0, 0, 0x20, 0, 0, 0] ++
    [0x24, 0, 0x49, 0, 0x33, 0, 0x30, 0] ++ nodeBytes record size

/-- Two directories name the second record, one in an allocation and one in a root; a third one names a
record that does not exist, and has content of its own. -/
def indexedRecords : List Bytes := [
  recordBytes (allocationBytes 1 20),
  recordBytes (rootBytes 1 10),
  recordBytes (rootBytes 9 8 ++ extentBytes 0 2)]

def indexEntryOf (record size : UInt64) : IndexEntry :=
  ⟨⟨record, 0⟩, 0x58, 0x42, 0, some ⟨⟨0, 0⟩, .none, 0, size, 0, 0, 0, .posix, ""⟩, none⟩

def rootOf (record size : UInt64) : Attribute where
  header := ⟨.indexRoot, 0x90, false, 0, 0, 0, 0, none⟩
  residency := .resident ⟨0x78, 0x18, 0⟩
  body := .indexRoot ⟨0x30, 0, 0, 0, ⟨0x10, 0x68, 0, 0⟩, [indexEntryOf record size]⟩

def allocationOf (record size : UInt64) : Attribute where
  header := ⟨.indexAllocation, 0x88, false, 4, 0x18, 0, 0, some directoryIndexName⟩
  residency := .resident ⟨0x68, 0x20, 0⟩
  body := .indexAllocation ⟨true, 1, [indexEntryOf record size]⟩

def indexedTable : Table := ⟨#[
  recordOf 0 [allocationOf 1 20] none,
  { recordOf 1 [rootOf 1 10] none with derivedSize := some 20 },
  recordOf 2 [rootOf 9 8, extentAt 0 2] none]⟩

theorem parse_indexedRecords :
    (indexedRecords.map Buffer.ofList).zipIdx.map
      (fun (raw, index) => Record.parse (UInt64.ofNat index) raw) =
    [recordOf 0 [allocationOf 1 20] none, recordOf 1 [rootOf 1 10] none,
      recordOf 2 [rootOf 9 8, extentAt 0 2] none] := by
  have hallocation : Record.parse 0 (Buffer.ofList (recordBytes (allocationBytes 1 20))) =
      recordOf 0 [allocationOf 1 20] none :=
    parse_recordBytes 0 (by decide +kernel)
  have hroot : Record.parse 1 (Buffer.ofList (recordBytes (rootBytes 1 10))) =
      recordOf 1 [rootOf 1 10] none :=
    parse_recordBytes 1 (by decide +kernel)
  have hcontent : Record.parse 2 (Buffer.ofList (recordBytes (rootBytes 9 8 ++ extentBytes 0 2))) =
      recordOf 2 [rootOf 9 8, extentAt 0 2] none :=
    parse_recordBytes 2 (by decide +kernel)
  rw [← hallocation, ← hroot, ← hcontent]
  rfl

theorem build_indexedRecords :
    (build ⟨none, none⟩ (Buffer.ofList indexedRecords.flatten)).result = .ok indexedTable := by
  have hsize : ∀ r ∈ indexedRecords, r.length = Record.size := by decide +kernel
  rw [build_result_of_records hsize, parse_indexedRecords]
  exact congrArg Except.ok (by decide +kernel)

/-- The entry in the allocation stays though its record comes first, and content that opens in its own
record says how long it is. -/
theorem build_sizes_threeDirectories :
    (build ⟨none, none⟩ (Buffer.ofList indexedRecords.flatten)).result = .ok indexedTable ∧
    indexedTable.entrySizes = [⟨1, 1, 10⟩, ⟨2, 9, 8⟩, ⟨0, 1, 20⟩] ∧
    (build ⟨none, none⟩ (Buffer.ofList indexedRecords.flatten)).warnings.filter Warning.isStray =
      [.dangling 2 9 "index entry points outside the table"] ∧
    indexedTable.logicalSize? 1 = some 20 ∧ indexedTable.logicalSize? 2 = some 2 := by
  obtain ⟨-, hstray, hindexed, hopened⟩ := build_sizes build_indexedRecords
  have hentries : indexedTable.entrySizes = [⟨1, 1, 10⟩, ⟨2, 9, 8⟩, ⟨0, 1, 20⟩] := by
    decide +kernel
  have hfirst : indexedTable.chain 1 = [1] := chain_of_link?_eq_none (by decide) rfl
  have hsecond : indexedTable.chain 2 = [2] := chain_of_link?_eq_none (by decide) rfl
  refine ⟨build_indexedRecords, hentries, ?_, ?_, ?_⟩
  · rw [hstray, hentries]
    decide +kernel
  · rw [hindexed 1 (by decide) fun c hc a ha => ?_, hentries]
    · rfl
    · rw [hfirst, List.mem_singleton] at hc
      subst hc
      cases (opens_iff.mp ha).1
  · have hopens : indexedTable.Opens 2 (extentAt 0 2) := opens_iff.mpr ⟨rfl, rfl⟩
    exact hopened 2 [] 2 [] _ hsecond hopens fun b hb => absurd hb List.not_mem_nil

end Table

end Ntfs
