import Ntfs.Proofs.Content.Placement
import Ntfs.Proofs.Table.Load
import Ntfs.Proofs.Table.Proposals
import Ntfs.Proofs.Table.Trail

/-!
# Chains of separate files

The links of all base records are written into the same records.  A base record gets the chain that its
attribute lists ask for if no other base record asks for a link from a record of that chain.  This is so
when no record belongs to two files, `Separate`: then the first proposal for a record is the only one, so
every proposal is taken (`linked_of_separate`), and the chain of a base record is the record itself
followed by those that extend it (`chain_of_separate`).
-/

namespace Ntfs

/-! ## Trails along a path -/

/-- Following `next` leads along the list and no further. -/
def IsPath (next : Nat → Option Nat) (path : List Nat) : Prop :=
  ∀ k (h : k < path.length), next path[k] = path[k + 1]?

theorem IsPath.drop {next : Nat → Option Nat} {path : List Nat} (h : IsPath next path) (n : Nat) :
    IsPath next (path.drop n) := by
  intro k hk
  rw [List.length_drop] at hk
  rw [List.getElem_drop, List.getElem?_drop, h (n + k) (by omega), Nat.add_assoc]

/-- Following leads along a path of admitted records, none of them twice. -/
theorem follows_of_isPath {admits : Nat → Bool} {next : Nat → Option Nat} {path met : List Nat}
    (hpath : IsPath next path) (hadmits : ∀ x ∈ path, admits x = true) (hnodup : path.Nodup)
    (hfresh : ∀ x ∈ path, x ∉ met) : Follows admits next met path.head? path := by
  induction path generalizing met with
  | nil => exact .missing
  | cons x rest ih =>
      obtain ⟨hx, hrest⟩ := List.nodup_cons.mp hnodup
      obtain ⟨hfirst, hadmits⟩ := List.forall_mem_cons.mp hadmits
      obtain ⟨hnew, hfresh⟩ := List.forall_mem_cons.mp hfresh
      have hnext : next x = rest.head? := by
        rw [List.head?_eq_getElem?]
        exact hpath 0 (Nat.zero_lt_succ _)
      refine .onward hfirst hnew (hnext ▸ ih (hpath.drop 1) hadmits hrest fun y hy hmem => ?_)
      rcases List.mem_cons.mp hmem with rfl | hmem
      · exact hx hy
      · exact hfresh y hy hmem

namespace Table

open Proposal

/-- No record belongs to two files. -/
def Separate (t : Table) : Prop :=
  ∀ i j, i ≠ j → t.extensions i ≠ [] → t.extensions j ≠ [] →
    (i :: t.extensions i).Disjoint (j :: t.extensions j)

/-- If no record belongs to two files, all proposals for a record ask for the same link. -/
theorem target_eq_of_separate {t : Table} (h : t.Separate) {p q : Proposal} (hp : p ∈ t.asked)
    (hq : q ∈ t.asked) (heq : p.source = q.source) : p.target = q.target := by
  obtain ⟨k, hsource, hnext⟩ := mem_asked_iff.mp hp
  obtain ⟨l, hsource', hnext'⟩ := mem_asked_iff.mp hq
  rw [heq] at hsource
  by_cases hbase : p.base = q.base
  · rw [hbase] at hsource hnext
    have hkl : k = l := by
      obtain ⟨hk, hk'⟩ := List.getElem?_eq_some_iff.mp hsource
      obtain ⟨hl, hl'⟩ := List.getElem?_eq_some_iff.mp hsource'
      exact (t.nodup_cons_extensions q.base).getElem_inj_iff.mp (hk'.trans hl'.symm)
    rw [hkl, hnext'] at hnext
    exact (Option.some.inj hnext).symm
  · exact absurd (List.mem_of_getElem? hsource') (h _ _ hbase (ne_nil_of_getElem? hnext)
      (ne_nil_of_getElem? hnext') (List.mem_of_getElem? hsource))

/-- So the first of them asks for what each of them does. -/
theorem firstTarget?_of_separate {t : Table} (h : t.Separate) {p : Proposal} (hp : p ∈ t.asked) :
    firstTarget? t.asked p.source = some p.target := by
  rw [firstTarget?]
  cases hfirst : t.asked.find? (·.source == p.source) with
  | none => exact absurd (beq_self_eq_true _) (List.find?_eq_none.mp hfirst p hp)
  | some q =>
      have hsource : q.source = p.source := by simpa using List.find?_some hfirst
      rw [Option.map_some, target_eq_of_separate h (List.mem_of_find?_eq_some hfirst) hp hsource]

/-! ## Chains -/

variable {u : Table}

/-- In a table of separate files all proposals are taken. -/
theorem linked_of_separate (hword : u.size ≤ maxWord) (hseparate : u.Separate)
    (hfree : ∀ i, u.link? i = none) :
    (∀ p ∈ u.asked, u.linked.1.link? p.source = some p.target) ∧
    (∀ i, (∀ p ∈ u.asked, p.source ≠ i) → u.linked.1.link? i = none) ∧
    ∀ w ∈ u.linked.2, ∀ record message, w ≠ .corruption record message := by
  have hfirst (p : Proposal) (hp : p ∈ u.asked) :
      firstTarget? u.asked p.source = some p.target :=
    firstTarget?_of_separate hseparate hp
  refine ⟨fun p hp => ?_, fun i hi => ?_, ?_⟩
  · rw [link?_linked hword hfree, hfirst p hp]
  · rw [link?_linked hword hfree, firstTarget?, Option.map_eq_none_iff, List.find?_eq_none]
    exact fun p hp hsource => hi p hp (beq_iff_eq.mp hsource)
  · have hquiet : u.linked.2.filter (!·.isDangling) = [] := by
      rw [filter_not_isDangling_linked hword hfree, List.filterMap_eq_nil_iff]
      intro p hp
      rw [conflict?, hfirst p hp, Option.bind_some, if_pos rfl]
    rintro w hw record message rfl
    exact List.filter_eq_nil_iff.mp hquiet _ hw rfl

/-- In a table of separate files, links lead along every file and end with it. -/
theorem isPath_of_separate (hword : u.size ≤ maxWord) (hseparate : u.Separate)
    (hfree : ∀ i, u.link? i = none) {i : Nat} (hi : u.extensions i ≠ []) :
    IsPath u.linked.1.link? (i :: u.extensions i) := by
  obtain ⟨htaken, hkept, -⟩ := linked_of_separate hword hseparate hfree
  intro k hk
  cases hnext : (i :: u.extensions i)[k + 1]? with
  | some next =>
      exact htaken ⟨i, _, next⟩ (mem_asked_iff.mpr ⟨k, List.getElem?_eq_getElem hk, hnext⟩)
  | none =>
      refine hkept _ fun p hp heq => ?_
      obtain ⟨l, hsource, htarget⟩ := mem_asked_iff.mp hp
      rw [heq] at hsource
      by_cases hij : i = p.base
      · subst hij
        obtain ⟨hl, hsame⟩ := List.getElem?_eq_some_iff.mp hsource
        obtain rfl := (u.nodup_cons_extensions _).getElem_inj_iff.mp hsame
        rw [hnext] at htarget
        cases htarget
      · exact hseparate i p.base hij hi (ne_nil_of_getElem? htarget) (List.getElem_mem hk)
          (List.mem_of_getElem? hsource)

/-- A record that belongs to no file leads nowhere. -/
theorem link?_of_not_mem (hword : u.size ≤ maxWord) (hseparate : u.Separate)
    (hfree : ∀ i, u.link? i = none) {j : Nat}
    (hj : ∀ i, u.extensions i ≠ [] → j ∉ i :: u.extensions i) : u.linked.1.link? j = none := by
  refine (linked_of_separate hword hseparate hfree).2.1 j fun p hp heq => ?_
  obtain ⟨k, hsource, htarget⟩ := mem_asked_iff.mp hp
  exact hj p.base (ne_nil_of_getElem? htarget) (heq ▸ List.mem_of_getElem? hsource)

/-- The chain of a record is the path that links lead along from there. -/
theorem chain_of_isPath {t : Table} {i : Nat} {rest : List Nat} (hpath : IsPath t.link? (i :: rest))
    (hinside : ∀ j ∈ i :: rest, j < t.size) (hnodup : (i :: rest).Nodup) :
    t.chain i = i :: rest :=
  (t.follows_chain i).unique (follows_of_isPath hpath (fun j hj => decide_eq_true (hinside j hj))
    hnodup fun _ _ => List.not_mem_nil)

/-- Filling in leaves the attribute lists as they are. -/
theorem extensions_resolved (u : Table) (i : Nat) : u.resolved.extensions i = u.extensions i := by
  have hmentions : (u.resolved.get? i).map Record.mentions = (u.get? i).map Record.mentions := by
    rw [get?_resolved, Option.map_map]
    rfl
  rw [extensions, extensions, hmentions, size_resolved]

/-- In a table of separate files, the chain of a base record is the record itself and those that extend
it, and a record of a chain has the rest of the chain.  Any other record stands alone, and no link is
dropped. -/
theorem chain_of_separate (options : TableOptions) (raw : Buffer) (hword : raw.size ≤ maxWord)
    (t : Table) (ht : (build options raw).result = .ok t) (hseparate : t.Separate) :
    (∀ i, t.extensions i ≠ [] → t.chain i = i :: t.extensions i ∧
      ∀ k (h : k < (t.extensions i).length),
        t.chain (t.extensions i)[k] = (t.extensions i).drop k) ∧
    (∀ j, j < t.size → (∀ i, t.extensions i ≠ [] → j ∉ i :: t.extensions i) → t.chain j = [j]) ∧
    ∃ u later, (unresolved options raw).result = .ok u ∧
      (build options raw).warnings = (unresolved options raw).warnings ++ u.linked.2 ++ later ∧
      ∀ w ∈ u.linked.2, ∀ record message, w ≠ .corruption record message := by
  obtain ⟨u, later, hu, rfl, hwarnings, hsize, hfresh⟩ := exists_fresh_of_build ht
  have hfree := link?_of_fresh hfresh
  have hword : u.size ≤ maxWord := hsize ▸ Nat.le_trans (Nat.div_le_self ..) hword
  have hextensions : u.resolved.extensions = u.extensions := funext (extensions_resolved u)
  have hlinks : u.resolved.link? = u.linked.1.link? := funext (link?_resolved u)
  have hseparate : u.Separate := by
    rw [Separate, hextensions] at hseparate
    exact hseparate
  rw [hextensions]
  refine ⟨fun i hi => ?_, fun j hj hother => ?_, u, later, hu, hwarnings, ?_⟩
  · have hpath := isPath_of_separate hword hseparate hfree hi
    have hinside : ∀ j ∈ i :: u.extensions i, j < u.resolved.size := fun j hj =>
      size_resolved u ▸ lt_size_of_mem_file hi hj
    have hnodup := u.nodup_cons_extensions i
    rw [← hlinks] at hpath
    refine ⟨chain_of_isPath hpath hinside hnodup, fun k hk => ?_⟩
    rw [List.drop_eq_getElem_cons hk]
    have hdrop : (i :: u.extensions i).drop (k + 1) =
        (u.extensions i)[k] :: (u.extensions i).drop (k + 1) :=
      List.drop_eq_getElem_cons hk
    refine chain_of_isPath ?_ ?_ ?_ <;> rw [← hdrop]
    · exact hpath.drop (k + 1)
    · exact fun j hj => hinside j (List.mem_of_mem_drop hj)
    · exact hnodup.sublist (List.drop_sublist ..)
  · refine chain_of_isPath (fun k hk => ?_) (fun x hx => ?_) (List.nodup_singleton j)
    · obtain rfl : k = 0 := by simpa using hk
      rw [hlinks]
      exact link?_of_not_mem hword hseparate hfree hother
    · rw [List.mem_singleton.mp hx]
      exact hj
  · exact (linked_of_separate hword hseparate hfree).2.2

/-! ## A file of three records -/

theorem extensions_splitTable (i : Nat) :
    (Content.splitTable true).extensions i = if i = 0 then [2, 1] else [] := by
  rcases i with - | - | - | i
  · decide +kernel
  · decide +kernel
  · decide +kernel
  · rfl

/-- The third record is named first, so it comes second in the chain. -/
theorem chain_of_separate_split :
    (Buffer.ofList (Content.splitRecords true).flatten).size ≤ maxWord ∧
    (build ⟨none, none⟩ (Buffer.ofList (Content.splitRecords true).flatten)).result =
      .ok (Content.splitTable true) ∧
    (Content.splitTable true).Separate ∧
    (Content.splitTable true).chain 0 = [0, 2, 1] ∧ (Content.splitTable true).chain 2 = [2, 1] := by
  have hsize : (Buffer.ofList (Content.splitRecords true).flatten).size = 3 * Record.size := by
    rw [← Buffer.length_toList, Buffer.toList_ofList]
    decide +kernel
  have hword : (Buffer.ofList (Content.splitRecords true).flatten).size ≤ maxWord := by
    rw [hsize]
    decide
  have hbuild := Content.build_splitRecords true
  have hextensions := extensions_splitTable 0
  have hseparate : (Content.splitTable true).Separate := by
    intro i j hij hi hj
    rw [extensions_splitTable] at hi hj
    obtain rfl : i = 0 := by simpa using hi
    obtain rfl : j = 0 := by simpa using hj
    exact absurd rfl hij
  obtain ⟨hchain, hrest⟩ := (chain_of_separate ⟨none, none⟩ _ hword _ hbuild hseparate).1 0
    (by rw [hextensions]; decide)
  simp only [hextensions] at hchain hrest
  exact ⟨hword, hbuild, hseparate, hchain, hrest 0 (by decide)⟩

end Table

end Ntfs
