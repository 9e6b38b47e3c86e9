import Ntfs.Proofs.Table.Proposals
import Ntfs.Proofs.Trace.Content
import Ntfs.Table.Build

/-!
# What is filled in

A table is built in two parts.  First the records are parsed, and what they keep on the disk is
loaded; such a table is unresolved.  Then links, parents and sizes are filled in, each by a pass that
changes one field of a record and leaves the others as they are, so a record of the finished table is
the unresolved one with three fields of it filled in (`get?_resolved`).
-/

namespace Ntfs

def IndexedSize.stray (s : IndexedSize) : Warning :=
  .dangling s.directory s.file "index entry points outside the table"

namespace Table

variable {options : TableOptions} {raw : Buffer}

/-- The table before anything is filled in. -/
def unresolved (options : TableOptions) (raw : Buffer) : Trace Table := do
  let records := stored raw
  let range ← Trace.ofExcept (rangeOf options.range records.length)
  let parsed := parseRecords range records
  Trace.warnAll (parsed.flatMap (·.warnings))
  let loaded ← loadRecords options.source parsed
  return ⟨loaded.toArray⟩

def resolved (t : Table) : Table := t.linked.1.withParents.1.withSizes.1

theorem build_eq_andThen : build options raw = (unresolved options raw).andThen resolve := by
  simp only [build, unresolved, Trace.bind_eq_andThen, Trace.andThen_assoc, Trace.pure_eq_done,
    Trace.done_andThen]

/-- Filling in always succeeds, and each pass raises its warnings in turn. -/
theorem resolve_eq (t : Table) :
    resolve t = ⟨[], [], t.linked.2 ++ (t.linked.1.withParents.2 ++
      t.linked.1.withParents.1.withSizes.2), .ok t.resolved⟩ := by
  simp [resolve, resolved, Trace.warnAll, Trace.andThen, Trace.done]

/-- The warnings on links, parents and sizes follow those on parsing and loading. -/
theorem warnings_build {u : Table} (hu : (unresolved options raw).result = .ok u) :
    (build options raw).warnings = (unresolved options raw).warnings ++
      (u.linked.2 ++ (u.linked.1.withParents.2 ++ u.linked.1.withParents.1.withSizes.2)) := by
  rw [build_eq_andThen, Trace.warnings_andThen_of_ok hu, resolve_eq]

/-- A built table is an unresolved one with everything filled in.  The warnings on links follow those
on parsing and loading. -/
theorem exists_unresolved_of_build {t : Table} (h : (build options raw).result = .ok t) :
    ∃ u later, (unresolved options raw).result = .ok u ∧ t = u.resolved ∧
      (build options raw).warnings = (unresolved options raw).warnings ++ u.linked.2 ++ later := by
  rw [build_eq_andThen] at h
  obtain ⟨u, hu, hresolve⟩ := Trace.andThen_result_eq_ok_iff.mp h
  rw [resolve_eq] at hresolve
  refine ⟨u, u.linked.1.withParents.2 ++ u.linked.1.withParents.1.withSizes.2, hu,
    (Except.ok.inj hresolve).symm, ?_⟩
  rw [warnings_build hu, List.append_assoc]

/-! ## Parents -/

@[simp]
theorem size_withParents (t : Table) : t.withParents.1.size = t.size := by
  simp [withParents, size]

/-- Every record gets its parent, and nothing else changes. -/
theorem get?_withParents (t : Table) (i : Nat) :
    t.withParents.1.get? i = (t.get? i).map fun r => (parentOf t.size r).1 := by
  simp [withParents, get?, Function.comp_def]

/-- The parent that the shown name gives a record, if the table has it. -/
theorem parentOf_eq (size : Nat) (r : Record) :
    (parentOf size r).1 =
      { r with parent :=
        ((r.preferredName?.map (·.parent.record)).filter (·.toNat < size)).or r.parent } := by
  unfold parentOf
  cases r.preferredName? with
  | none => rfl
  | some f => by_cases h : f.parent.record.toNat < size <;> simp [h, Option.filter]

/-! ## Sizes -/

/-- The size that the last of the entries for a file gives. -/
def lastSize? (sizes : List IndexedSize) (i : Nat) : Option UInt64 :=
  ((sizes.filter (·.file.toNat == i)).getLast?).map (·.size)

theorem lastSize?_cons (s : IndexedSize) (rest : List IndexedSize) (i : Nat) :
    lastSize? (s :: rest) i =
      (lastSize? rest i).or (if s.file.toNat = i then some s.size else none) := by
  simp only [lastSize?, List.getLast?_filter, List.reverse_cons, List.find?_append, Option.map_or,
    List.find?_singleton, beq_iff_eq]
  congr 1
  split <;> rfl

@[simp]
theorem size_applySize (t : Table) (s : IndexedSize) : (t.applySize s).1.size = t.size := by
  unfold applySize
  split
  · exact size_modify ..
  · rfl

@[simp]
theorem size_applySizes (t : Table) (sizes : List IndexedSize) :
    (t.applySizes sizes).1.size = t.size := by
  induction sizes generalizing t with
  | nil => rfl
  | cons s rest ih => exact (ih _).trans (size_applySize t s)

/-- A size replaces that of its record, and changes nothing else. -/
theorem get?_applySize (t : Table) (s : IndexedSize) (i : Nat) :
    (t.applySize s).1.get? i = (t.get? i).map fun r =>
      { r with derivedSize := (if s.file.toNat = i then some s.size else none).or r.derivedSize } := by
  unfold applySize
  by_cases hi : s.file.toNat = i
  · rw [if_pos hi]
    split
    · rw [get?_modify, if_pos hi]
      simp only [Option.some_or]
    · rename_i houtside
      rw [hi] at houtside
      rw [show t.get? i = none from Array.getElem?_eq_none (Nat.not_lt.mp houtside), Option.map_none]
  · have hsame (r : Record) : { r with derivedSize := none.or r.derivedSize } = r := by
      rw [Option.none_or]
    simp only [if_neg hi, hsame, Option.map_id']
    split
    · rw [get?_modify, if_neg hi]
    · rfl

theorem applySizes_cons (t : Table) (s : IndexedSize) (rest : List IndexedSize) :
    t.applySizes (s :: rest) =
      (((t.applySize s).1.applySizes rest).1,
        (t.applySize s).2 ++ ((t.applySize s).1.applySizes rest).2) := rfl

/-- Of the sizes for a record the last one stays. -/
theorem get?_applySizes (t : Table) (sizes : List IndexedSize) (i : Nat) :
    (t.applySizes sizes).1.get? i =
      (t.get? i).map fun r => { r with derivedSize := (lastSize? sizes i).or r.derivedSize } := by
  induction sizes generalizing t with
  | nil => simp [applySizes, lastSize?]
  | cons s rest ih =>
      rw [applySizes_cons, ih, get?_applySize, Option.map_map, lastSize?_cons]
      simp only [Function.comp_def, Option.or_assoc]

/-- Each size for a file that the table does not have raises one warning. -/
theorem warnings_applySizes (t : Table) (sizes : List IndexedSize) :
    (t.applySizes sizes).2 =
      (sizes.filter fun s => decide (t.size ≤ s.file.toNat)).map IndexedSize.stray := by
  induction sizes generalizing t with
  | nil => rfl
  | cons s rest ih =>
      rw [applySizes_cons, ih, size_applySize, applySize]
      split
      · rename_i hinside
        rw [List.filter_cons_of_neg (by simpa using hinside)]
        rfl
      · rename_i houtside
        rw [List.filter_cons_of_pos (by simpa using houtside)]
        rfl

/-! ## All passes -/

@[simp]
theorem size_withParents_linked (t : Table) : t.linked.1.withParents.1.size = t.size := by
  rw [size_withParents, linked, size_applyLinks]

@[simp]
theorem size_resolved (t : Table) : t.resolved.size = t.size := by
  rw [resolved, withSizes, size_applySizes, size_withParents_linked]

/-- When sizes are applied, a record has its link and its parent. -/
theorem get?_withParents_linked (t : Table) (i : Nat) :
    t.linked.1.withParents.1.get? i = (t.get? i).map fun r =>
      { r with
        link := r.link.or (t.linkSteps.findSome? (LinkStep.target? i))
        parent := ((r.preferredName?.map (·.parent.record)).filter (·.toNat < t.size)).or
          r.parent } := by
  have hsize : t.linked.1.size = t.size := size_applyLinks t t.linkSteps
  rw [get?_withParents, hsize, linked, get?_applyLinks, Option.map_map]
  simp only [Function.comp_def, parentOf_eq]
  rfl

/-- A record of a resolved table is the one that stood there with link, parent and size filled in. -/
theorem get?_resolved (t : Table) (i : Nat) :
    t.resolved.get? i = (t.get? i).map fun r =>
      { r with
        link := r.link.or (t.linkSteps.findSome? (LinkStep.target? i))
        parent := ((r.preferredName?.map (·.parent.record)).filter (·.toNat < t.size)).or r.parent
        derivedSize := (lastSize? t.linked.1.withParents.1.indexedSizes i).or r.derivedSize } := by
  rw [resolved, withSizes, get?_applySizes, get?_withParents_linked, Option.map_map]
  rfl

/-- Filling in changes nothing of a record but its link, its parent and its derived size. -/
theorem exists_of_get?_resolved {t : Table} {i : Nat} {r : Record}
    (h : t.resolved.get? i = some r) :
    ∃ before link found, t.get? i = some before ∧
      r = { before with
        link := before.link.or link
        parent := ((before.preferredName?.map (·.parent.record)).filter (·.toNat < t.size)).or
          before.parent
        derivedSize := found } := by
  rw [get?_resolved, Option.map_eq_some_iff] at h
  obtain ⟨before, hbefore, rfl⟩ := h
  exact ⟨before, _, _, hbefore, rfl⟩

/-- The links of a resolved table are those that linking made. -/
theorem link?_resolved (t : Table) (i : Nat) : t.resolved.link? i = t.linked.1.link? i := by
  rw [link?, link?, get?_resolved, linked, get?_applyLinks, Option.bind_map, Option.bind_map]
  rfl

/-- Filling in leaves the attributes of a record as they are. -/
theorem attributes_resolved (t : Table) (i : Nat) :
    (t.resolved.get? i).map Record.attributes = (t.get? i).map Record.attributes := by
  rw [get?_resolved, Option.map_map]
  rfl

end Table

end Ntfs
