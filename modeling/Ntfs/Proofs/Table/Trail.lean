import Mathlib.Data.List.Perm.Subperm
import Mathlib.Logic.Function.Iterate
import Ntfs.Table.Basic

/-!
# Following links to their end

A trail takes a bounded number of steps.  Following links without a bound, `Follows`, ends too, since
only so many records can be met before one of them comes again, and what it finds is the trail
(`follows_trail`).  So nothing is cut off but what comes after a record that is not there, or after one
met before: the chain of a record is the longest front without repetition of what its links lead to
(`chain_isLongest`).
-/

namespace Ntfs

section Following

variable {admits : Nat → Bool} {next : Nat → Option Nat}

/-- Following `next` from `cur` on, with the records of `met` behind, finds the records of `rest`.  It
ends where nothing follows, at a record that is not admitted, and at one met before. -/
inductive Follows (admits : Nat → Bool) (next : Nat → Option Nat) :
    (met : List Nat) → (cur : Option Nat) → (rest : List Nat) → Prop
  | missing {met : List Nat} : Follows admits next met none []
  | refused {met : List Nat} {c : Nat} (hadmits : admits c = false) :
      Follows admits next met (some c) []
  | again {met : List Nat} {c : Nat} (hmet : c ∈ met) : Follows admits next met (some c) []
  | onward {met : List Nat} {c : Nat} {rest : List Nat} (hadmits : admits c = true)
      (hnew : c ∉ met) (hrest : Follows admits next (c :: met) (next c) rest) :
      Follows admits next met (some c) (c :: rest)

/-- Following leads to one list of records only. -/
theorem Follows.unique {met : List Nat} {cur : Option Nat} {left right : List Nat}
    (hleft : Follows admits next met cur left) (hright : Follows admits next met cur right) :
    left = right := by
  induction hleft generalizing right with
  | missing =>
      cases hright
      rfl
  | refused hadmits =>
      cases hright with
      | refused => rfl
      | again => rfl
      | onward hadmits' => rw [hadmits] at hadmits'; cases hadmits'
  | again hmet =>
      cases hright with
      | refused => rfl
      | again => rfl
      | onward _ hnew => exact absurd hmet hnew
  | onward hadmits hnew _ ih =>
      cases hright with
      | refused hadmits' => rw [hadmits] at hadmits'; cases hadmits'
      | again hmet => exact absurd hmet hnew
      | onward _ _ hrest => rw [ih hrest]

theorem length_le_of_nodup {items : List Nat} {bound : Nat} (hnodup : items.Nodup)
    (hbound : ∀ c ∈ items, c < bound) : items.length ≤ bound := by
  have hsub : items ⊆ List.range bound := fun c hc => List.mem_range.mpr (hbound c hc)
  have hlength := (hnodup.subperm hsub).length_le
  rwa [List.length_range] at hlength

/-- A trail with as many steps as there are records that were not met yet is never cut off. -/
theorem follows_trail {size fuel : Nat} {met : List Nat} {seen : Std.HashSet Nat} {cur : Option Nat}
    (hsize : ∀ c, admits c = true → c < size) (hseen : ∀ c, seen.contains c = true ↔ c ∈ met)
    (hnodup : met.Nodup) (hmet : ∀ c ∈ met, c < size) (hfuel : size ≤ fuel + met.length) :
    Follows admits next met cur (trail admits next fuel seen cur) := by
  induction fuel generalizing met seen cur with
  | zero =>
      cases cur with
      | none => exact .missing
      | some c =>
          cases hadmits : admits c with
          | false => exact .refused hadmits
          | true =>
              refine .again (by_contra fun hnew => ?_)
              have hlength : (c :: met).length ≤ size :=
                length_le_of_nodup (List.nodup_cons.mpr ⟨hnew, hnodup⟩)
                  (List.forall_mem_cons.mpr ⟨hsize c hadmits, hmet⟩)
              rw [List.length_cons] at hlength
              omega
  | succ fuel ih =>
      cases cur with
      | none => exact .missing
      | some c =>
          rw [trail]
          split
          · rename_i hgo
            obtain ⟨hadmits, hfree⟩ := Bool.and_eq_true_iff.mp hgo
            have hnew : c ∉ met := fun hmem => by simp [(hseen c).mpr hmem] at hfree
            refine .onward hadmits hnew (ih (fun d => ?_) (List.nodup_cons.mpr ⟨hnew, hnodup⟩)
              (List.forall_mem_cons.mpr ⟨hsize c hadmits, hmet⟩) ?_)
            · rw [Std.HashSet.contains_insert, Bool.or_eq_true, hseen, beq_iff_eq, List.mem_cons,
                eq_comm]
            · rw [List.length_cons]
              omega
          · rename_i hstop
            cases hadmits : admits c with
            | false => exact .refused hadmits
            | true =>
                refine .again ((hseen c).mp ?_)
                simpa [hadmits] using hstop

/-! ## Fronts -/

/-- A front of what `next` leads to from `cur` on, one step after the other, with admitted records only
and none of them twice. -/
structure IsFront (admits : Nat → Bool) (next : Nat → Option Nat) (cur : Option Nat)
    (front : List Nat) : Prop where
  leads : ∀ k (h : k < front.length), (fun c : Option Nat => c.bind next)^[k] cur = some front[k]
  admitted : ∀ c ∈ front, admits c = true
  nodup : front.Nodup

theorem isFront_nil (cur : Option Nat) : IsFront admits next cur [] where
  leads _ h := absurd h (Nat.not_lt_zero _)
  admitted _ h := absurd h List.not_mem_nil
  nodup := List.nodup_nil

/-- A front starts where the walk starts, and goes on with a front from there that does not come back. -/
theorem isFront_cons_iff {cur : Option Nat} {c : Nat} {rest : List Nat} :
    IsFront admits next cur (c :: rest) ↔
      cur = some c ∧ admits c = true ∧ c ∉ rest ∧ IsFront admits next (next c) rest := by
  constructor
  · rintro ⟨hleads, hadmitted, hnodup⟩
    obtain rfl : cur = some c := hleads 0 (Nat.zero_lt_succ _)
    obtain ⟨hadmits, hrest⟩ := List.forall_mem_cons.mp hadmitted
    obtain ⟨hnew, hnodup⟩ := List.nodup_cons.mp hnodup
    exact ⟨rfl, hadmits, hnew, fun k hk => hleads (k + 1) (Nat.succ_lt_succ hk), hrest, hnodup⟩
  · rintro ⟨rfl, hadmits, hnew, hleads, hadmitted, hnodup⟩
    refine ⟨fun k hk => ?_, List.forall_mem_cons.mpr ⟨hadmits, hadmitted⟩,
      List.nodup_cons.mpr ⟨hnew, hnodup⟩⟩
    cases k with
    | zero => rfl
    | succ k => exact hleads k (Nat.lt_of_succ_lt_succ hk)

/-- What follows a record on a front is a front of what follows that record. -/
theorem IsFront.suffix {cur : Option Nat} {before after : List Nat} {c : Nat}
    (h : IsFront admits next cur (before ++ c :: after)) :
    IsFront admits next (some c) (c :: after) := by
  induction before generalizing cur with
  | nil =>
      obtain ⟨rfl, -⟩ := isFront_cons_iff.mp h
      exact h
  | cons b before ih => exact ih (isFront_cons_iff.mp h).2.2.2

/-- What a walk meets is a front, and none of it was met before. -/
theorem Follows.isFront {met : List Nat} {cur : Option Nat} {rest : List Nat}
    (h : Follows admits next met cur rest) :
    IsFront admits next cur rest ∧ ∀ c ∈ rest, c ∉ met := by
  induction h with
  | missing => exact ⟨isFront_nil _, fun _ hc => absurd hc List.not_mem_nil⟩
  | refused => exact ⟨isFront_nil _, fun _ hc => absurd hc List.not_mem_nil⟩
  | again => exact ⟨isFront_nil _, fun _ hc => absurd hc List.not_mem_nil⟩
  | onward hadmits hnew _ ih =>
      obtain ⟨hfront, hfresh⟩ := ih
      refine ⟨isFront_cons_iff.mpr ⟨rfl, hadmits, fun hmem => ?_, hfront⟩,
        List.forall_mem_cons.mpr ⟨hnew, fun d hd hmet => ?_⟩⟩
      · exact hfresh _ hmem List.mem_cons_self
      · exact hfresh d hd (List.mem_cons_of_mem _ hmet)

/-- What comes next is not admitted, or it was met. -/
theorem Follows.ends {met : List Nat} {cur : Option Nat} {rest : List Nat}
    (h : Follows admits next met cur rest) {c : Nat}
    (hc : (fun c : Option Nat => c.bind next)^[rest.length] cur = some c) :
    admits c = false ∨ c ∈ met ∨ c ∈ rest := by
  induction h with
  | missing => cases hc
  | refused hadmits =>
      cases hc
      exact .inl hadmits
  | again hmet =>
      cases hc
      exact .inr (.inl hmet)
  | onward _ _ _ ih =>
      obtain hadmits | hmet | hrest := ih hc
      · exact .inl hadmits
      · rcases List.mem_cons.mp hmet with rfl | hmet
        · exact .inr (.inr List.mem_cons_self)
        · exact .inr (.inl hmet)
      · exact .inr (.inr (List.mem_cons_of_mem _ hrest))

/-- Every front without a record met before is one of what is found. -/
theorem Follows.extends_front {met : List Nat} {cur : Option Nat} {rest front : List Nat}
    (h : Follows admits next met cur rest) (hfront : IsFront admits next cur front)
    (hfresh : ∀ c ∈ front, c ∉ met) : front <+: rest := by
  induction h generalizing front with
  | missing =>
      cases front with
      | nil => exact List.nil_prefix
      | cons x front => cases (isFront_cons_iff.mp hfront).1
  | refused hadmits =>
      cases front with
      | nil => exact List.nil_prefix
      | cons x front =>
          obtain ⟨heq, hadmits', -⟩ := isFront_cons_iff.mp hfront
          cases heq
          rw [hadmits] at hadmits'
          cases hadmits'
  | again hmet =>
      cases front with
      | nil => exact List.nil_prefix
      | cons x front =>
          cases (isFront_cons_iff.mp hfront).1
          exact absurd hmet (hfresh _ List.mem_cons_self)
  | onward hadmits hnew _ ih =>
      cases front with
      | nil => exact List.nil_prefix
      | cons x front =>
          obtain ⟨heq, -, hx, hrest⟩ := isFront_cons_iff.mp hfront
          cases heq
          refine List.cons_prefix_cons.mpr ⟨rfl, ih hrest fun d hd hmem => ?_⟩
          rcases List.mem_cons.mp hmem with rfl | hmem
          · exact hx hd
          · exact hfresh d (List.mem_cons_of_mem _ hd) hmem

end Following

namespace Table

/-- The links that are followed from a record, with the records of the table only. -/
theorem follows_chain (t : Table) (id : Nat) :
    Follows (fun c => decide (c < t.size)) t.link? [] (some id) (t.chain id) :=
  follows_trail (fun _ => of_decide_eq_true) (fun c => by simp) List.nodup_nil
    (fun _ h => absurd h List.not_mem_nil) (Nat.le_refl _)

/-- A record of the table comes first in its own chain. -/
theorem exists_chain_eq_cons {t : Table} {id : Nat} (hid : id < t.size) :
    ∃ rest, t.chain id = id :: rest := by
  have hfollows := t.follows_chain id
  generalize t.chain id = chain at hfollows
  cases hfollows with
  | refused hadmits => exact absurd hid (of_decide_eq_false hadmits)
  | again hmet => cases hmet
  | onward _ _ _ => exact ⟨_, rfl⟩

/-- A record without a link makes up a file alone. -/
theorem chain_of_link?_eq_none {t : Table} {id : Nat} (hid : id < t.size) (h : t.link? id = none) :
    t.chain id = [id] := by
  refine (t.follows_chain id).unique (.onward (decide_eq_true hid) List.not_mem_nil ?_)
  rw [h]
  exact .missing

/-- Following links from a record ends, and the chain is what it finds: of the record, its link, the
link of that and so on, the longest front with records of the table and none twice.  It is empty for a
record outside the table only, never longer than the table, and every part of it up to its end comes
first in the chain of the record it starts with. -/
theorem chain_isLongest (t : Table) (id : Nat) :
    Follows (fun c => decide (c < t.size)) t.link? [] (some id) (t.chain id) ∧
    IsFront (fun c => decide (c < t.size)) t.link? (some id) (t.chain id) ∧
    (∀ front, IsFront (fun c => decide (c < t.size)) t.link? (some id) front →
      front <+: t.chain id) ∧
    (t.chain id = [] ↔ t.size ≤ id) ∧
    (t.chain id).length ≤ t.size ∧
    ∀ before c after, t.chain id = before ++ c :: after → c :: after <+: t.chain c := by
  have hlongest (c : Nat) (front : List Nat)
      (hfront : IsFront (fun c => decide (c < t.size)) t.link? (some c) front) :
      front <+: t.chain c :=
    (t.follows_chain c).extends_front hfront fun _ _ => List.not_mem_nil
  have hchain := (t.follows_chain id).isFront.1
  refine ⟨t.follows_chain id, hchain, hlongest id, ⟨fun hnil => ?_, fun houtside => ?_⟩, ?_, ?_⟩
  · -- a record of the table alone would be a longer front
    by_contra hinside
    have hone : [id] <+: t.chain id := hlongest id [id] (isFront_cons_iff.mpr
      ⟨rfl, decide_eq_true (Nat.not_le.mp hinside), List.not_mem_nil, isFront_nil _⟩)
    rw [hnil] at hone
    exact absurd (List.prefix_nil.mp hone) (List.cons_ne_nil _ _)
  · exact (t.follows_chain id).unique (.refused (decide_eq_false (Nat.not_lt.mpr houtside)))
  · exact length_le_of_nodup hchain.nodup fun c hc => of_decide_eq_true (hchain.admitted c hc)
  · intro before c after heq
    rw [heq] at hchain
    exact hlongest c _ hchain.suffix

end Table

end Ntfs
