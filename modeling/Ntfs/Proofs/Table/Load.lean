import Mathlib.Data.List.Forall2
import Ntfs.Proofs.Table.Resolve

/-!
# Records before anything is filled in

A record as it is parsed has its number, no link, no parent and no size from an index, and without
the signature it has nothing else either.  Loading never fails, whatever the disk does, and changes
nothing but the bodies of attributes, so all this holds of a loaded record too (`exists_unresolved`).
-/

namespace Ntfs

/-- A record of which nothing has been filled in. -/
structure Record.Fresh (id : UInt64) (r : Record) : Prop where
  id_eq : r.id = id
  link_eq : r.link = none
  parent_eq : r.parent = none
  derivedSize_eq : r.derivedSize = none
  /-- Without the signature there is nothing in it. -/
  blank : r.isValid = false → r.attributes = [] ∧ r.warnings = []

theorem Record.fresh_parse (id : UInt64) (raw : Buffer) : Fresh id (parse id raw) := by
  unfold parse
  dsimp only
  split
  · rename_i hvalid
    exact ⟨rfl, rfl, rfl, rfl, fun hinvalid => absurd (hvalid.symm.trans hinvalid) (by decide)⟩
  · exact ⟨rfl, rfl, rfl, rfl, fun _ => ⟨rfl, rfl⟩⟩

/-- A record stays fresh when the bodies of attributes change. -/
theorem Record.Fresh.of_attributes {id : UInt64} {r : Record} (h : r.Fresh id)
    {attributes : List Attribute} (hlength : r.attributes.length = attributes.length) :
    Fresh id { r with attributes } where
  id_eq := h.id_eq
  link_eq := h.link_eq
  parent_eq := h.parent_eq
  derivedSize_eq := h.derivedSize_eq
  blank hinvalid := by
    obtain ⟨hnone, hwarnings⟩ := h.blank hinvalid
    rw [hnone] at hlength
    exact ⟨List.length_eq_zero_iff.mp hlength.symm, hwarnings⟩

/-- Work that always succeeds does so for every item of a list. -/
theorem Trace.exists_mapM_result {α β : Type} {f : α → Trace β} {R : α → β → Prop}
    (h : ∀ a, ∃ b, (f a).result = .ok b ∧ R a b) (items : List α) :
    ∃ results, (items.mapM f).result = .ok results ∧ List.Forall₂ R items results := by
  induction items with
  | nil => exact ⟨[], rfl, .nil⟩
  | cons a rest ih =>
      obtain ⟨b, hb, hab⟩ := h a
      obtain ⟨results, hresults, hrest⟩ := ih
      refine ⟨b :: results, ?_, .cons hab hrest⟩
      rw [List.mapM_cons, Trace.bind_eq_andThen, Trace.andThen_result_eq_ok_iff]
      refine ⟨b, hb, ?_⟩
      rw [Trace.bind_eq_andThen, Trace.andThen_result_eq_ok_iff]
      exact ⟨results, hresults, rfl⟩

/-- Work that leaves every item as it is leaves the list as it is. -/
theorem Trace.mapM_of_done {α : Type} {f : α → Trace α} {items : List α}
    (h : ∀ a ∈ items, f a = .done a) : items.mapM f = .done items := by
  induction items with
  | nil => rfl
  | cons a rest ih =>
      obtain ⟨ha, hrest⟩ := List.forall_mem_cons.mp h
      rw [Trace.mapM_cons, ha, ih hrest]
      rfl

namespace Table

variable {options : TableOptions} {raw : Buffer}

/-- An attribute that cannot be loaded is kept, so loading one succeeds. -/
theorem succeeds_loadAttribute (disk : Disk) (g : Geometry) (r : Record) (a : Attribute) :
    (loadAttribute disk g r a).Succeeds := by
  unfold loadAttribute
  split
  · simp only [Trace.bind_eq_andThen]
    refine Trace.Succeeds.andThen ⟨_, rfl⟩ fun outcome _ => ?_
    cases outcome with
    | error failure => exact ⟨_, rfl⟩
    | ok content => exact ⟨_, rfl⟩
  · exact Trace.succeeds_done _

/-- Only attributes that need loading are changed by it. -/
theorem loadAttribute_of_kept {disk : Disk} {g : Geometry} {r : Record} {a : Attribute}
    (h : needsLoading a = false) : loadAttribute disk g r a = .done a := by
  rw [loadAttribute, h]
  rfl

/-- Records in which nothing needs loading stay as they were parsed, and no disk is asked. -/
theorem loadRecords_of_kept {records : List Record}
    (h : ∀ r ∈ records, ∀ a ∈ r.attributes, needsLoading a = false)
    (source : Option (Disk × Geometry)) : loadRecords source records = .done records := by
  cases source with
  | none => rfl
  | some source =>
      obtain ⟨disk, g⟩ := source
      refine Trace.mapM_of_done fun r hr => ?_
      have hattributes : r.attributes.mapM (loadAttribute disk g r) = .done r.attributes :=
        Trace.mapM_of_done fun a ha => loadAttribute_of_kept (h r hr a ha)
      rw [loadRecord, hattributes]
      rfl

/-- Loading a record changes nothing but its attributes, and their number stays. -/
theorem exists_loadRecord (disk : Disk) (g : Geometry) (r : Record) :
    ∃ loaded, (loadRecord disk g r).result = .ok loaded ∧
      ∃ attributes, loaded = { r with attributes } ∧ r.attributes.length = attributes.length := by
  obtain ⟨attributes, hresult, hattributes⟩ := Trace.exists_mapM_result
    (fun a => (succeeds_loadAttribute disk g r a).imp fun _ h => ⟨h, trivial⟩) r.attributes
  refine ⟨{ r with attributes }, ?_, attributes, rfl, hattributes.length_eq⟩
  exact Trace.andThen_result_eq_ok_iff.mpr ⟨attributes, hresult, rfl⟩

theorem length_stored (raw : Buffer) : (stored raw).length = raw.size / Record.size := by
  rw [stored, List.length_map, List.length_range]

@[simp]
theorem length_parseRecords (range : Nat × Nat) (records : List Buffer) :
    (parseRecords range records).length = records.length := by
  simp [parseRecords]

theorem fresh_of_parseRecords (range : Nat × Nat) (records : List Buffer) (i : Nat) (r : Record)
    (h : (parseRecords range records)[i]? = some r) : r.Fresh (UInt64.ofNat i) := by
  rw [parseRecords, List.getElem?_map, List.getElem?_zipIdx, Option.map_map, Nat.zero_add,
    Option.map_eq_some_iff] at h
  obtain ⟨bytes, -, rfl⟩ := h
  exact Record.fresh_parse _ _

/-- Loading keeps every record in its place and fresh. -/
theorem exists_loadRecords (source : Option (Disk × Geometry)) {records : List Record}
    (hfresh : ∀ (i : Nat) r, records[i]? = some r → r.Fresh (UInt64.ofNat i)) :
    ∃ loaded, (loadRecords source records).result = .ok loaded ∧
      loaded.length = records.length ∧
      ∀ (i : Nat) r, loaded[i]? = some r → r.Fresh (UInt64.ofNat i) := by
  cases source with
  | none => exact ⟨records, rfl, rfl, hfresh⟩
  | some source =>
      obtain ⟨disk, g⟩ := source
      obtain ⟨loaded, hresult, hrelated⟩ :=
        Trace.exists_mapM_result (exists_loadRecord disk g) records
      obtain ⟨hlength, hat⟩ := List.forall₂_iff_get.mp hrelated
      refine ⟨loaded, hresult, hlength.symm, fun i r hr => ?_⟩
      obtain ⟨hi, rfl⟩ := List.getElem?_eq_some_iff.mp hr
      obtain ⟨attributes, hloaded, hattributes⟩ := hat i (hlength ▸ hi) hi
      have hbefore := hfresh i _ (List.getElem?_eq_getElem (hlength ▸ hi))
      rw [show loaded[i] = _ from hloaded]
      exact hbefore.of_attributes hattributes

/-- With a range that exists, parsing and loading give a table of all records, in their places and
with nothing filled in. -/
theorem exists_unresolved {range : Nat × Nat}
    (hrange : rangeOf options.range (raw.size / Record.size) = .ok range) :
    ∃ u, (unresolved options raw).result = .ok u ∧ u.size = raw.size / Record.size ∧
      ∀ i r, u.get? i = some r → r.Fresh (UInt64.ofNat i) := by
  obtain ⟨loaded, hresult, hlength, hfresh⟩ := exists_loadRecords options.source
    (fresh_of_parseRecords range (stored raw))
  refine ⟨⟨loaded.toArray⟩, ?_, ?_, fun i r hr => hfresh i r ?_⟩
  · simp only [unresolved, length_stored, hrange, Trace.ofExcept, Trace.bind_eq_andThen]
    rw [Trace.andThen_result_eq_ok_iff]
    refine ⟨range, rfl, ?_⟩
    rw [Trace.andThen_result_eq_ok_iff]
    refine ⟨(), rfl, ?_⟩
    rw [Trace.andThen_result_eq_ok_iff]
    exact ⟨loaded, hresult, rfl⟩
  · rw [size, List.size_toArray, hlength, length_parseRecords, length_stored]
  · simpa [get?] using hr

/-- With a range that exists, nothing is asked of it but which records to parse. -/
theorem build_of_rangeOf_eq_ok {range : Nat × Nat}
    (hrange : rangeOf options.range (raw.size / Record.size) = .ok range) :
    build options raw =
      (Trace.warnAll ((parseRecords range (stored raw)).flatMap (·.warnings))).andThen fun _ =>
        (loadRecords options.source (parseRecords range (stored raw))).andThen fun loaded =>
          resolve ⟨loaded.toArray⟩ := by
  have hdone : Trace.ofExcept (.ok range) = Trace.done range := rfl
  rw [build, length_stored, hrange]
  simp only [hdone, Trace.bind_eq_andThen, Trace.done_andThen]

/-- When nothing needs loading, a table has the records as they were parsed, with links, parents and
sizes filled in. -/
theorem build_result_of_kept {range : Nat × Nat}
    (hrange : rangeOf options.range (raw.size / Record.size) = .ok range)
    (hkept : ∀ r ∈ parseRecords range (stored raw), ∀ a ∈ r.attributes, needsLoading a = false) :
    (build options raw).result =
      .ok (resolved ⟨(parseRecords range (stored raw)).toArray⟩) := by
  rw [build_of_rangeOf_eq_ok hrange, loadRecords_of_kept hkept, Trace.done_andThen, resolve_eq]
  rfl

/-- Of a range that does not exist nothing is parsed, and the disk is not asked. -/
theorem build_of_rangeOf_eq_error {failure : Failure}
    (hrange : rangeOf options.range (raw.size / Record.size) = .error failure) :
    build options raw = .fail failure := by
  rw [build, length_stored, hrange]
  rfl

/-- A built table comes from one of all records in which nothing is filled in. -/
theorem exists_fresh_of_build {t : Table} (h : (build options raw).result = .ok t) :
    ∃ u later, (unresolved options raw).result = .ok u ∧ t = u.resolved ∧
      (build options raw).warnings = (unresolved options raw).warnings ++ u.linked.2 ++ later ∧
      u.size = raw.size / Record.size ∧ ∀ i r, u.get? i = some r → r.Fresh (UInt64.ofNat i) := by
  obtain ⟨u, later, hu, hresolved, hwarnings⟩ := exists_unresolved_of_build h
  refine ⟨u, later, hu, hresolved, hwarnings, ?_⟩
  cases hrange : rangeOf options.range (raw.size / Record.size) with
  | error failure =>
      rw [build_of_rangeOf_eq_error hrange] at h
      cases h
  | ok range =>
      obtain ⟨u', hu', hfresh⟩ := exists_unresolved hrange
      rw [hu] at hu'
      cases hu'
      exact hfresh

theorem link?_of_fresh {u : Table} (hfresh : ∀ i r, u.get? i = some r → r.Fresh (UInt64.ofNat i))
    (i : Nat) : u.link? i = none := by
  cases hr : u.get? i with
  | none => rw [link?, hr, Option.bind_none]
  | some r => rw [link?, hr, Option.bind_some, (hfresh i r hr).link_eq, Option.map_none]

end Table

end Ntfs
