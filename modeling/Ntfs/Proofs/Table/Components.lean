import Ntfs.Proofs.Table.Path

/-!
# Components of a path

Where no name has a slash in it, a path can be taken apart again: `path?_components` says that each of its
components has one slash in front of it and is not empty, if the name of the record is not.  The slash alone
is the path of a top, and a record that is its own parent is one, as the root directory is
(`own_parent_and_empty_name`).
-/

namespace Ntfs.Table

/-- A path of components, each behind a slash of its own. -/
structure IsPathOf (path : String) (components : List String) : Prop where
  ne_nil : components ≠ []
  proper : ∀ c ∈ components, c ≠ "" ∧ '/' ∉ c.toList
  text : path = String.join (components.map ("/" ++ ·))

/-- The last component is not empty, so the path does not end in a slash. -/
theorem IsPathOf.getLast?_ne {path : String} {components : List String}
    (h : IsPathOf path components) : path.toList.getLast? ≠ some '/' := by
  obtain ⟨front, last, rfl⟩ := (List.eq_nil_or_concat' components).resolve_left h.ne_nil
  obtain ⟨hne, hfree⟩ := h.proper last (by simp)
  have htext : path.toList =
      (String.join (front.map ("/" ++ ·))).toList ++ '/' :: last.toList := by
    rw [h.text]
    simp
  have hlast : last.toList ≠ [] := fun hnil => hne (String.toList_inj.mp hnil)
  intro hslash
  rw [htext, List.getLast?_append, List.getLast?_cons_of_ne_nil hlast,
    List.getLast?_eq_some_getLast hlast, Option.some_or] at hslash
  exact hfree (Option.some.inj hslash ▸ List.getLast_mem hlast)

theorem join_slashes {components : List String} (h : components ≠ []) :
    "/" ++ "/".intercalate components = String.join (components.map ("/" ++ ·)) := by
  induction components with
  | nil => exact absurd rfl h
  | cons first rest ih =>
      cases rest with
      | nil => simp
      | cons second rest =>
          rw [String.intercalate_cons_cons, List.map_cons, String.join_cons,
            ← ih (List.cons_ne_nil _ _)]
          simp only [String.append_assoc]

/-- No file of the table has a name with a slash. -/
def SlashFree (t : Table) : Prop :=
  ∀ id r, t.get? id = some r → ∀ f ∈ r.fileNames, '/' ∉ f.name.toList

theorem SlashFree.shownName? {t : Table} (h : t.SlashFree) {id : Nat} {name : String}
    (hname : t.shownName? id = some name) : '/' ∉ name.toList := by
  obtain ⟨r, hr, hbest⟩ := Option.bind_eq_some_iff.mp hname
  obtain ⟨f, hf, rfl⟩ := Option.map_eq_some_iff.mp hbest
  exact h id r hr f (List.argmin_mem hf)

/-- The path of a top is a slash.  The path of any other record with a name that is not empty has one slash
in front of each of its components, none of which is empty and the last of which is this name; so it is not
a slash. -/
theorem path?_components {t : Table} (hslash : t.SlashFree) {id : Nat} {name : String}
    (hname : t.shownName? id = some name) :
    (id = rootId ∨ t.parent? id = some id → t.path? id = some "/") ∧
    (id ≠ rootId → t.parent? id ≠ some id → name ≠ "" →
      ∃ path components, t.path? id = some path ∧ IsPathOf path components ∧
        components.getLast? = some name ∧ path ≠ "/") := by
  refine ⟨path?_of_top hname, fun hroot hself hnonempty => ?_⟩
  have hwalk := t.walksUp_directoriesAbove (lt_size_of_shownName? hname)
  have hpath := path?_below_top hname hroot hself hwalk
  generalize (t.directoriesAbove id).reverse = above at hpath
  have hcomponents : (above.filterMap t.shownName?).filter (· ≠ "") ++ [name] ≠ [] :=
    List.append_ne_nil_of_right_ne_nil _ (List.cons_ne_nil _ _)
  have hform : IsPathOf _ ((above.filterMap t.shownName?).filter (· ≠ "") ++ [name]) :=
    ⟨hcomponents, fun c hc => ?_, join_slashes hcomponents⟩
  · refine ⟨_, _, hpath, hform, List.getLast?_concat, fun hroot => hform.getLast?_ne ?_⟩
    rw [hroot]
    rfl
  · rcases List.mem_append.mp hc with hdirectory | hown
    · obtain ⟨hmem, hne⟩ := List.mem_filter.mp hdirectory
      obtain ⟨p, -, hp⟩ := List.mem_filterMap.mp hmem
      exact ⟨of_decide_eq_true hne, hslash.shownName? hp⟩
    · obtain rfl := List.mem_singleton.mp hown
      exact ⟨hnonempty, hslash.shownName? hname⟩

theorem slashFree_circleTable : circleTable.SlashFree := by
  have hfree : ∀ r ∈ circleTable.records.toList, ∀ f ∈ r.fileNames, '/' ∉ f.name.toList := by
    decide
  intro id r hr
  exact hfree r (List.mem_of_getElem? (by simpa [get?] using hr))

/-- The circle is cut, and the directory with the empty name is left out. -/
theorem path?_components_circle :
    (build ⟨none, none⟩ (Buffer.ofList circleRecords.flatten)).result = .ok circleTable ∧
    circleTable.SlashFree ∧ circleTable.shownName? 0 = some "a" ∧
    ∃ path components, circleTable.path? 0 = some path ∧ IsPathOf path components ∧
      components.getLast? = some "a" ∧ path ≠ "/" := by
  have hname : circleTable.shownName? 0 = some "a" := by decide +kernel
  exact ⟨build_circleRecords, slashFree_circleTable, hname,
    (path?_components slashFree_circleTable hname).2 (by decide) (by decide +kernel) (by decide)⟩

/-- The last of these records is not the root directory, and its path is a slash all the same.  The path of
the second one, which has an empty name, ends in a slash. -/
theorem own_parent_and_empty_name :
    (¬ ∀ (options : TableOptions) (raw : Buffer) (t : Table), (build options raw).result = .ok t →
      t.SlashFree → ∀ id name, t.shownName? id = some name →
        (t.path? id = some "/" ↔ id = rootId)) ∧
    ¬ ∀ (options : TableOptions) (raw : Buffer) (t : Table), (build options raw).result = .ok t →
      t.SlashFree → ∀ id name, t.shownName? id = some name →
        id ≠ rootId → t.parent? id ≠ some id →
          ∃ path components, t.path? id = some path ∧ IsPathOf path components := by
  refine ⟨fun hclaim => ?_, fun hclaim => ?_⟩
  · have hname : circleTable.shownName? 3 = some "d" := by decide +kernel
    have hpath : circleTable.path? 3 = some "/" := path?_of_top hname (.inr rfl)
    have hroot := (hclaim _ _ _ build_circleRecords slashFree_circleTable 3 "d" hname).mp hpath
    exact absurd hroot (by decide)
  · have hname : circleTable.shownName? 1 = some "" := by decide +kernel
    have hself : circleTable.parent? 1 ≠ some 1 := by decide +kernel
    have hwalk : circleTable.WalksUp 1 [2] := by
      refine ⟨fun k hk => ?_, by decide +kernel, by decide +kernel⟩
      match k with
      | 0 => rfl
    obtain ⟨path, components, hpath, hform⟩ :=
      hclaim _ _ _ build_circleRecords slashFree_circleTable 1 "" hname (by decide) hself
    rw [path?_below_top hname (by decide) hself hwalk] at hpath
    obtain rfl := Option.some.inj hpath
    exact hform.getLast?_ne (by decide +kernel)

end Ntfs.Table
