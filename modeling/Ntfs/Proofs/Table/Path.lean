import Ntfs.Proofs.Table.Invariant
import Ntfs.Proofs.Table.Trail
import Ntfs.Table.Path

/-!
# What a path is made of

Parents may lead anywhere: to a record that does not exist, to one without a name, or around in a circle.
The walk up from a record stops in front of the first of them that is not there, was met before or is a
top, `WalksUp`, and it always stops (`path?_of_walk`).  The path has a component for each directory with
a name that the walk comes by, from the topmost one down, and at last the name of the record.
-/

namespace Ntfs.Table

/-- The name shown for a record: of those with the lowest rank the earliest one. -/
def shownName? (t : Table) (id : Nat) : Option String :=
  (t.get? id).bind fun r => (r.fileNames.argmin (·.space.rank)).map (·.name)

/-- The parent of a record, the parent of that one, and so on. -/
def ancestor? (t : Table) (id k : Nat) : Option Nat :=
  (fun c : Option Nat => c.bind t.parent?)^[k] (t.parent? id)

/-- The walk up from a record does not come to the ancestor of a number: it is not there, it is the record
itself or an ancestor met before, or paths start at it. -/
def StopsAt (t : Table) (id k : Nat) : Prop :=
  ∀ p ∈ t.ancestor? id k,
    t.size ≤ p ∨ p = id ∨ (∃ j < k, t.ancestor? id j = some p) ∨ p = rootId ∨ t.parent? p = some p

instance (t : Table) (id k : Nat) : Decidable (t.StopsAt id k) :=
  inferInstanceAs (Decidable (∀ p ∈ t.ancestor? id k,
    t.size ≤ p ∨ p = id ∨ (∃ j < k, t.ancestor? id j = some p) ∨ p = rootId ∨ t.parent? p = some p))

/-- The records that the walk up from a record comes to. -/
structure WalksUp (t : Table) (id : Nat) (above : List Nat) : Prop where
  leads : ∀ k (h : k < above.length), t.ancestor? id k = some above[k]
  goesOn : ∀ k < above.length, ¬ t.StopsAt id k
  stops : t.StopsAt id above.length

variable {t : Table} {id : Nat}

theorem isTop_iff : t.isTop id = true ↔ id = rootId ∨ t.parent? id = some id := by
  rw [isTop, Bool.or_eq_true, beq_iff_eq, beq_iff_eq]

/-- A walk stops at one number only. -/
theorem WalksUp.unique {left right : List Nat} (hleft : t.WalksUp id left)
    (hright : t.WalksUp id right) : left = right := by
  have hlength : left.length = right.length := by
    rcases Nat.lt_trichotomy left.length right.length with hlt | heq | hgt
    · exact absurd hleft.stops (hright.goesOn _ hlt)
    · exact heq
    · exact absurd hright.stops (hleft.goesOn _ hgt)
  refine List.ext_getElem hlength fun k hk hk' => ?_
  exact Option.some.inj ((hleft.leads k hk).symm.trans (hright.leads k hk'))

/-- The directories above a record are met by going from parent to parent until a top, a record met before
or none comes. -/
theorem follows_directoriesAbove (hid : id < t.size) :
    Follows (fun p => decide (p < t.size) && !t.isTop p) t.parent? [id] (t.parent? id)
      (t.directoriesAbove id) :=
  follows_trail (fun _ h => of_decide_eq_true (Bool.and_eq_true_iff.mp h).1)
    (fun c => by simpa using eq_comm) (List.nodup_singleton id)
    (fun _ hc => List.mem_singleton.mp hc ▸ hid) (Nat.le_add_right _ _)

/-- The directories of a path are those that the walk comes to. -/
theorem walksUp_directoriesAbove (hid : id < t.size) : t.WalksUp id (t.directoriesAbove id) := by
  have hfollows := t.follows_directoriesAbove hid
  obtain ⟨hfront, hfresh⟩ := hfollows.isFront
  generalize t.directoriesAbove id = above at hfollows hfront hfresh
  refine ⟨hfront.leads, fun k hk hstops => ?_, fun p hp => ?_⟩
  · have hmem : above[k] ∈ above := List.getElem_mem hk
    obtain ⟨hinside, hlower⟩ := Bool.and_eq_true_iff.mp (hfront.admitted _ hmem)
    have hnotTop : ¬ t.isTop above[k] = true := by simpa using hlower
    rcases hstops _ (hfront.leads k hk) with houtside | hself | ⟨j, hjk, hj⟩ | htop
    · exact absurd (of_decide_eq_true hinside) (Nat.not_lt.mpr houtside)
    · exact hfresh _ hmem (List.mem_singleton.mpr hself)
    · have hlt : j < above.length := hjk.trans hk
      have hsame : above[j] = above[k] := Option.some.inj ((hfront.leads j hlt).symm.trans hj)
      exact absurd (hfront.nodup.getElem_inj_iff.mp hsame) (Nat.ne_of_lt hjk)
    · exact hnotTop (isTop_iff.mpr htop)
  · obtain hadmits | hself | hmet := hfollows.ends hp
    · rcases Bool.and_eq_false_iff.mp hadmits with houtside | htop
      · exact .inl (Nat.not_lt.mp (of_decide_eq_false houtside))
      · exact .inr (.inr (.inr (isTop_iff.mp (by simpa using htop))))
    · exact .inr (.inl (List.mem_singleton.mp hself))
    · obtain ⟨j, hj, rfl⟩ := List.getElem_of_mem hmet
      exact .inr (.inr (.inl ⟨j, hj, hfront.leads j hj⟩))

/-- No record comes twice, and the one that the walk starts at does not come at all. -/
theorem length_directoriesAbove_lt (hid : id < t.size) : (t.directoriesAbove id).length < t.size := by
  obtain ⟨hfront, hfresh⟩ := (t.follows_directoriesAbove hid).isFront
  have hnew : id ∉ t.directoriesAbove id := fun hmem => hfresh id hmem List.mem_cons_self
  have hnodup : (id :: t.directoriesAbove id).Nodup := List.nodup_cons.mpr ⟨hnew, hfront.nodup⟩
  refine length_le_of_nodup hnodup (List.forall_mem_cons.mpr ⟨hid, fun c hc => ?_⟩)
  exact of_decide_eq_true (Bool.and_eq_true_iff.mp (hfront.admitted c hc)).1

/-! ## The text -/

theorem shownName?_eq (t : Table) (id : Nat) : t.shownName? id = (t.get? id).bind (·.name?) := by
  simp only [shownName?, Record.name?, Record.preferredName?, FileName.preferred?_eq_argmin]

theorem shownName?_eq_none_iff :
    t.shownName? id = none ↔ t.size ≤ id ∨ ∃ r, t.get? id = some r ∧ r.fileNames = [] := by
  rw [shownName?]
  cases hr : t.get? id with
  | none =>
      have houtside : t.size ≤ id := Array.getElem?_eq_none_iff.mp hr
      simp [houtside]
  | some r =>
      have hinside : ¬ t.size ≤ id := Nat.not_le.mpr (Array.getElem?_eq_some_iff.mp hr).1
      simp [hinside, List.argmin_eq_none]

theorem filterMap_directoryName? (t : Table) (above : List Nat) :
    above.filterMap t.directoryName? = (above.filterMap t.shownName?).filter (· ≠ "") := by
  have hshown (name : String) : (!name.isEmpty) = decide (name ≠ "") := by
    by_cases hname : name = "" <;> simp [hname]
  rw [List.filter_filterMap]
  refine List.filterMap_congr fun p _ => ?_
  simp only [directoryName?, shownName?_eq, hshown]

/-- A path is made up of the names that are not empty of the directories above, and the name of the
record. -/
theorem path?_eq (t : Table) (id : Nat) :
    t.path? id = (t.shownName? id).map fun name =>
      if t.isTop id then "/"
      else "/" ++ "/".intercalate
        (((t.directoriesAbove id).reverse.filterMap t.shownName?).filter (· ≠ "") ++ [name]) := by
  rw [path?, shownName?_eq]
  cases t.get? id with
  | none => rfl
  | some r =>
      cases hname : r.name? with
      | none => simp [hname]
      | some name =>
          simp only [hname, Option.bind_eq_bind, Option.bind_some, Option.map_some]
          split
          · rfl
          · rw [List.reverse_cons, filterMap_directoryName?, ← List.filter_reverse,
              ← List.filterMap_reverse]
            rfl

theorem path?_of_top {name : String} (hname : t.shownName? id = some name)
    (htop : id = rootId ∨ t.parent? id = some id) : t.path? id = some "/" := by
  rw [path?_eq, hname, Option.map_some, if_pos (isTop_iff.mpr htop)]

theorem lt_size_of_shownName? {name : String} (hname : t.shownName? id = some name) : id < t.size := by
  by_contra houtside
  rw [shownName?_eq_none_iff.mpr (.inl (Nat.not_lt.mp houtside))] at hname
  cases hname

theorem path?_below_top {name : String} {above : List Nat} (hname : t.shownName? id = some name)
    (hroot : id ≠ rootId) (hself : t.parent? id ≠ some id) (hwalk : t.WalksUp id above) :
    t.path? id = some ("/" ++ "/".intercalate
      ((above.reverse.filterMap t.shownName?).filter (· ≠ "") ++ [name])) := by
  have hnotTop : ¬ t.isTop id = true := fun htop => (isTop_iff.mp htop).elim hroot hself
  rw [path?_eq, hname, Option.map_some, if_neg hnotTop,
    hwalk.unique (t.walksUp_directoriesAbove (lt_size_of_shownName? hname))]

/-- A record outside the table has no path, and one without a name has none.  The path of a top is a
slash.  The walk up from any other record stops, after fewer steps than there are records; behind a slash
its path has the names that are not empty of what the walk comes to, from the last to the first, and then
the name of the record, with a slash between any two. -/
theorem path?_of_walk (t : Table) (id : Nat) :
    (t.path? id = none ↔ t.size ≤ id ∨ ∃ r, t.get? id = some r ∧ r.fileNames = []) ∧
    ∀ name, t.shownName? id = some name →
      (id = rootId ∨ t.parent? id = some id → t.path? id = some "/") ∧
      (id ≠ rootId → t.parent? id ≠ some id →
        (∃ above, t.WalksUp id above ∧ above.length < t.size) ∧
        ∀ above, t.WalksUp id above → t.path? id = some ("/" ++ "/".intercalate
          ((above.reverse.filterMap t.shownName?).filter (· ≠ "") ++ [name]))) := by
  refine ⟨?_, fun name hname => ⟨path?_of_top hname, fun hroot hself => ?_⟩⟩
  · rw [path?_eq, Option.map_eq_none_iff, shownName?_eq_none_iff]
  · have hid := lt_size_of_shownName? hname
    exact ⟨⟨_, t.walksUp_directoriesAbove hid, t.length_directoriesAbove_lt hid⟩,
      fun above hwalk => path?_below_top hname hroot hself hwalk⟩

/-! ## A circle and a record that is its own parent -/

open Content (recordBytes recordOf parse_recordBytes)

/-- The parents of the first record are a circle, and one of them has an empty name.  The last record is its
own parent. -/
def circleRecords : List Bytes := [
  recordBytes (nameBytes 1 [0x61]),
  recordBytes (nameBytes 2 []),
  recordBytes (nameBytes 1 [0x63]),
  recordBytes (nameBytes 3 [0x64])]

def circleTable : Table := ⟨#[
  { recordOf 0 [nameAttribute 1 1 "a"] none with parent := some 1 },
  { recordOf 1 [nameAttribute 2 0 ""] none with parent := some 2 },
  { recordOf 2 [nameAttribute 1 1 "c"] none with parent := some 1 },
  { recordOf 3 [nameAttribute 3 1 "d"] none with parent := some 3 }]⟩

theorem parse_circleRecords :
    (circleRecords.map Buffer.ofList).zipIdx.map
      (fun (raw, index) => Record.parse (UInt64.ofNat index) raw) =
    [recordOf 0 [nameAttribute 1 1 "a"] none, recordOf 1 [nameAttribute 2 0 ""] none,
      recordOf 2 [nameAttribute 1 1 "c"] none, recordOf 3 [nameAttribute 3 1 "d"] none] := by
  have hfirst : Record.parse 0 (Buffer.ofList (recordBytes (nameBytes 1 [0x61]))) =
      recordOf 0 [nameAttribute 1 1 "a"] none := parse_recordBytes 0 (by decide +kernel)
  have hsecond : Record.parse 1 (Buffer.ofList (recordBytes (nameBytes 2 []))) =
      recordOf 1 [nameAttribute 2 0 ""] none := parse_recordBytes 1 (by decide +kernel)
  have hthird : Record.parse 2 (Buffer.ofList (recordBytes (nameBytes 1 [0x63]))) =
      recordOf 2 [nameAttribute 1 1 "c"] none := parse_recordBytes 2 (by decide +kernel)
  have hlast : Record.parse 3 (Buffer.ofList (recordBytes (nameBytes 3 [0x64]))) =
      recordOf 3 [nameAttribute 3 1 "d"] none := parse_recordBytes 3 (by decide +kernel)
  rw [← hfirst, ← hsecond, ← hthird, ← hlast]
  rfl

theorem build_circleRecords :
    (build ⟨none, none⟩ (Buffer.ofList circleRecords.flatten)).result = .ok circleTable := by
  have hsize : ∀ r ∈ circleRecords, r.length = Record.size := by decide +kernel
  rw [build_result_of_records hsize, parse_circleRecords]
  exact congrArg Except.ok (by decide +kernel)

/-- The walk goes round the circle once; the last record is a top, and there is no fifth one. -/
theorem path?_of_walk_circle :
    (build ⟨none, none⟩ (Buffer.ofList circleRecords.flatten)).result = .ok circleTable ∧
    circleTable.WalksUp 0 [1, 2] ∧ circleTable.path? 0 = some "/c/a" ∧
    circleTable.path? 3 = some "/" ∧ circleTable.path? 4 = none := by
  have hwalk : circleTable.WalksUp 0 [1, 2] := by
    refine ⟨fun k hk => ?_, by decide +kernel, by decide +kernel⟩
    match k with
    | 0 => rfl
    | 1 => rfl
  have hfirst : circleTable.shownName? 0 = some "a" := by decide +kernel
  have hlast : circleTable.shownName? 3 = some "d" := by decide +kernel
  refine ⟨build_circleRecords, hwalk, ?_, ?_, ?_⟩
  · rw [(((path?_of_walk _ 0).2 _ hfirst).2 (by decide) (by decide +kernel)).2 _ hwalk]
    decide +kernel
  · exact ((path?_of_walk _ 3).2 _ hlast).1 (.inr rfl)
  · exact (path?_of_walk _ 4).1.mpr (.inl (by decide))

end Ntfs.Table
