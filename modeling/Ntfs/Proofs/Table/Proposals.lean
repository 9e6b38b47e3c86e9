import Mathlib.Data.List.Nodup
import Ntfs.Proofs.Table.Distinct
import Ntfs.Record.Parse
import Ntfs.Table.Links

/-!
# Proposals for links

Base records propose the links of the records that extend them: `asked` are the proposals of a table, in
order.  A link is never overwritten.  So a record leads where the first proposal for it does, and the
warning that a step raises is the one it would raise in the finished table (`warnings_applyLinks`): a
proposal is reported if and only if its record leads elsewhere (`linked_takes_first`).
-/

namespace Ntfs

/-- The numbers that the attribute lists of a record name, in order. -/
def Record.mentions (r : Record) : List Nat :=
  r.attributes.flatMap fun a =>
    match a.body with
    | .attributeList entries => entries.map (·.holder.record.toNat)
    | _ => []

/-- A link that a base record asks for. -/
structure Proposal where
  base : Nat
  source : Nat
  target : Nat
  deriving DecidableEq, Repr

namespace Proposal

def firstTarget? (asked : List Proposal) (i : Nat) : Option Nat :=
  (asked.find? (·.source == i)).map (·.target)

/-- The warning that a proposal raises where records have these links: its record leads elsewhere. -/
def conflict? (link? : Nat → Option Nat) (p : Proposal) : Option Warning :=
  (link? p.source).bind fun existing =>
    if existing = p.target then none
    else some (.corruption (UInt64.ofNat p.source)
      s!"already linked to {existing}, link to {p.target} from base {p.base} dropped")

end Proposal

def Warning.isDangling : Warning → Bool
  | .dangling .. => true
  | .corruption .. | .outOfRange .. => false

namespace Table

open Proposal

/-! ## What base records ask for -/

/-- The other records of the table that the attribute lists of a record name, in order of first
mention. -/
def extensions (t : Table) (i : Nat) : List Nat :=
  ((((t.get? i).map Record.mentions).getD []).filter fun j => decide (j < t.size) && j != i).eraseDups

/-- The numbers outside the table that the attribute lists of a record name, in order of first
mention. -/
def missing (t : Table) (i : Nat) : List Nat :=
  ((((t.get? i).map Record.mentions).getD []).filter fun j => decide (t.size ≤ j)).eraseDups

/-- The links that the base records ask for: along its list, each asks for one from itself to the first
record, from there to the second, and so on. -/
def asked (t : Table) : List Proposal :=
  (List.range t.size).flatMap fun i =>
    List.zipWith (Proposal.mk i) (i :: t.extensions i) (t.extensions i)

theorem toNat_ofNat_of_get? {t : Table} (hword : t.size ≤ maxWord) {i : Nat} {r : Record}
    (hr : t.get? i = some r) : (UInt64.ofNat i).toNat = i := by
  have hi : i < t.size := (Array.getElem?_eq_some_iff.mp hr).1
  exact UInt64.toNat_ofNat_of_lt' (Nat.lt_of_lt_of_le hi (Nat.le_trans hword (by decide)))

/-- The records that a record lists, as numbers. -/
theorem map_filter_listedRecords {t : Table} (hword : t.size ≤ maxWord) {i : Nat} {r : Record}
    (hr : t.get? i = some r) (p : Nat → Bool) :
    ((r.listedRecords (UInt64.ofNat i)).filter (p ·.toNat)).map UInt64.toNat =
      ((((t.get? i).map Record.mentions).getD []).filter fun j => p j && j != i).eraseDups := by
  have hmentions : r.mentions = (r.attributes.flatMap fun a =>
      match a.body with
      | .attributeList entries => entries.map (·.holder.record)
      | _ => []).map UInt64.toNat := by
    rw [Record.mentions, List.map_flatMap]
    congr 1
    funext a
    split <;> simp_all
  have hinjective : Function.Injective UInt64.toNat := fun _ _ => UInt64.toNat_inj.mp
  have hother (x : UInt64) : (x != UInt64.ofNat i) = (x.toNat != i) := by
    rw [bne, bne, Bool.not_inj_iff, Bool.eq_iff_iff, beq_iff_eq, beq_iff_eq, ← UInt64.toNat_inj,
      toNat_ofNat_of_get? hword hr]
  have hkept : (fun x : UInt64 => p x.toNat && x != UInt64.ofNat i) =
      (fun j => p j && j != i) ∘ UInt64.toNat := by
    funext x
    rw [Function.comp_apply, hother]
  rw [hr, Option.map_some, Option.getD_some, hmentions, Record.listedRecords, filter_eraseDups,
    map_eraseDups hinjective, List.filter_map, List.filter_filter]
  exact congrArg (fun kept => ((List.filter kept _).map UInt64.toNat).eraseDups) hkept

/-- The extensions of a record are those of the records it lists that the table has. -/
theorem map_listedRecords {t : Table} (hword : t.size ≤ maxWord) {i : Nat} {r : Record}
    (hr : t.get? i = some r) :
    ((r.listedRecords (UInt64.ofNat i)).filter (·.toNat < t.size)).map UInt64.toNat =
      t.extensions i :=
  map_filter_listedRecords hword hr fun j => decide (j < t.size)

/-- The others are missing. -/
theorem map_listedRecords_missing {t : Table} (hword : t.size ≤ maxWord) {i : Nat} {r : Record}
    (hr : t.get? i = some r) :
    ((r.listedRecords (UInt64.ofNat i)).filter (t.size ≤ ·.toNat)).map UInt64.toNat =
      t.missing i := by
  have hi : i < t.size := (Array.getElem?_eq_some_iff.mp hr).1
  rw [map_filter_listedRecords hword hr fun j => decide (t.size ≤ j), missing]
  congr 1
  refine List.filter_congr fun j _ => ?_
  rw [Bool.and_eq_left_iff_imp, decide_eq_true_eq, bne_iff_ne]
  exact fun hj heq => Nat.not_lt.mpr hj (heq ▸ hi)

theorem nodup_cons_extensions (t : Table) (i : Nat) : (i :: t.extensions i).Nodup := by
  refine List.nodup_cons.mpr ⟨?_, nodup_eraseDups _⟩
  simp [extensions]

theorem lt_size_of_mem_extensions {t : Table} {i j : Nat} (h : j ∈ t.extensions i) : j < t.size := by
  simp only [extensions, List.mem_eraseDups, List.mem_filter, Bool.and_eq_true,
    decide_eq_true_eq] at h
  exact h.2.1

theorem exists_get?_of_extensions {t : Table} {i : Nat} (h : t.extensions i ≠ []) :
    ∃ r, t.get? i = some r := by
  cases hr : t.get? i with
  | none => exact absurd (by simp [extensions, hr]) h
  | some r => exact ⟨r, rfl⟩

theorem ne_nil_of_getElem? {t : Table} {i k next : Nat}
    (h : (i :: t.extensions i)[k + 1]? = some next) : t.extensions i ≠ [] := by
  rintro hnil
  simp [hnil] at h

/-- A file with extensions lies in the table. -/
theorem lt_size_of_mem_file {t : Table} {i j : Nat} (h : t.extensions i ≠ [])
    (hj : j ∈ i :: t.extensions i) : j < t.size := by
  rcases List.mem_cons.mp hj with rfl | hj
  · obtain ⟨r, hr⟩ := exists_get?_of_extensions h
    exact (Array.getElem?_eq_some_iff.mp hr).1
  · exact lt_size_of_mem_extensions hj

/-- Every link asked for leads from one record of a file to the next. -/
theorem mem_asked_iff {t : Table} {p : Proposal} :
    p ∈ t.asked ↔ ∃ k : Nat, (p.base :: t.extensions p.base)[k]? = some p.source ∧
      (p.base :: t.extensions p.base)[k + 1]? = some p.target := by
  have hzip (i : Nat) : p ∈ List.zipWith (Proposal.mk i) (i :: t.extensions i) (t.extensions i) ↔
      ∃ k : Nat, ∃ source target, (i :: t.extensions i)[k]? = some source ∧
        (i :: t.extensions i)[k + 1]? = some target ∧ Proposal.mk i source target = p := by
    rw [List.mem_iff_getElem?]
    simp only [List.getElem?_zipWith_eq_some, List.getElem?_cons_succ]
  rw [asked, List.mem_flatMap]
  constructor
  · rintro ⟨i, -, hp⟩
    obtain ⟨k, source, target, hsource, htarget, rfl⟩ := (hzip i).mp hp
    exact ⟨k, hsource, htarget⟩
  · rintro ⟨k, hsource, htarget⟩
    have hbase := lt_size_of_mem_file (ne_nil_of_getElem? htarget) List.mem_cons_self
    exact ⟨p.base, List.mem_range.mpr hbase, (hzip _).mpr ⟨k, _, _, hsource, htarget, rfl⟩⟩

/-- A proposal leads from a record of the table to another one. -/
theorem inside_of_mem_asked {t : Table} {p : Proposal} (h : p ∈ t.asked) :
    p.source < t.size ∧ p.target < t.size ∧ p.target ≠ p.source := by
  obtain ⟨k, hsource, htarget⟩ := mem_asked_iff.mp h
  have hfile := ne_nil_of_getElem? htarget
  refine ⟨lt_size_of_mem_file hfile (List.mem_of_getElem? hsource),
    lt_size_of_mem_file hfile (List.mem_of_getElem? htarget), fun heq => ?_⟩
  obtain ⟨hk, hk'⟩ := List.getElem?_eq_some_iff.mp hsource
  obtain ⟨hl, hl'⟩ := List.getElem?_eq_some_iff.mp htarget
  have hsame := (t.nodup_cons_extensions p.base).getElem_inj_iff.mp (hl'.trans (heq.trans hk'.symm))
  omega

/-! ## The steps of linking -/

def LinkStep.proposal? : LinkStep → Option Proposal
  | .propose base source target => some ⟨base.toNat, source.toNat, target.toNat⟩
  | .dangle .. => none

def LinkStep.missing? : LinkStep → Option Warning
  | .propose .. => none
  | .dangle base target => some (.dangling base target "attribute list target outside the table")

def proposals (steps : List LinkStep) : List Proposal := steps.filterMap LinkStep.proposal?

/-- Along its list, a base record asks for a link from each record of the table to the next. -/
theorem proposals_linkStepsFrom (size : Nat) (base source : UInt64) (targets : List UInt64) :
    proposals (linkStepsFrom size base source targets) =
      List.zipWith (Proposal.mk base.toNat)
        (source.toNat :: (targets.filter (·.toNat < size)).map UInt64.toNat)
        ((targets.filter (·.toNat < size)).map UInt64.toNat) := by
  induction targets generalizing source with
  | nil => rfl
  | cons target rest ih =>
      rw [linkStepsFrom]
      split
      · rename_i hinside
        rw [List.filter_cons_of_pos (by simpa using hinside), List.map_cons,
          List.zipWith_cons_cons, ← ih target]
        rfl
      · rename_i houtside
        rw [List.filter_cons_of_neg (by simpa using houtside), ← ih source]
        rfl

/-- The records of its list that a base record finds missing. -/
theorem missing_linkStepsFrom (size : Nat) (base source : UInt64) (targets : List UInt64) :
    (linkStepsFrom size base source targets).filterMap LinkStep.missing? =
      (targets.filter (size ≤ ·.toNat)).map
        (.dangling base · "attribute list target outside the table") := by
  induction targets generalizing source with
  | nil => rfl
  | cons target rest ih =>
      rw [linkStepsFrom]
      split
      · rename_i hinside
        rw [List.filter_cons_of_neg (by simpa using hinside), ← ih target]
        rfl
      · rename_i houtside
        rw [List.filter_cons_of_pos (by simpa using houtside), List.map_cons, ← ih source]
        rfl

/-- What is gathered record by record is gathered number by number. -/
theorem flatMap_zipIdx {α : Type} (t : Table) {f : Record × Nat → List α} {g : Nat → List α}
    (h : ∀ i r, t.get? i = some r → f (r, i) = g i) :
    t.records.toList.zipIdx.flatMap f = (List.range t.size).flatMap g := by
  have hrange : List.range t.size = t.records.toList.zipIdx.map Prod.snd := by
    rw [List.zipIdx_map_snd, ← List.range_eq_range', Array.length_toList, size]
  rw [hrange, List.flatMap_map]
  refine List.flatMap_congr fun entry hmem => h entry.2 entry.1 ?_
  rw [get?, ← Array.getElem?_toList]
  exact List.mem_zipIdx_iff_getElem?.mp hmem

/-- The steps of a table propose what its base records ask for. -/
theorem proposals_linkSteps {t : Table} (hword : t.size ≤ maxWord) :
    proposals t.linkSteps = t.asked := by
  rw [proposals, linkSteps, List.filterMap_flatMap, asked]
  refine t.flatMap_zipIdx fun i r hr => ?_
  have hsteps := proposals_linkStepsFrom t.size (UInt64.ofNat i) (UInt64.ofNat i)
    (r.listedRecords (UInt64.ofNat i))
  rwa [map_listedRecords hword hr, toNat_ofNat_of_get? hword hr] at hsteps

/-- The steps of a table find the numbers outside it that base records name. -/
theorem missing_linkSteps {t : Table} (hword : t.size ≤ maxWord) :
    t.linkSteps.filterMap LinkStep.missing? = (List.range t.size).flatMap fun i =>
      (t.missing i).map fun target => .dangling (UInt64.ofNat i) (UInt64.ofNat target)
        "attribute list target outside the table" := by
  rw [linkSteps, List.filterMap_flatMap]
  refine t.flatMap_zipIdx fun i r hr => ?_
  rw [missing_linkStepsFrom, ← map_listedRecords_missing hword hr, List.map_map]
  simp only [Function.comp_def, UInt64.ofNat_toNat]

/-! ## Taking the steps -/

def LinkStep.target? (i : Nat) : LinkStep → Option UInt64
  | .propose _ source target => if source.toNat = i then some target else none
  | .dangle .. => none

/-- The first proposal for a record comes from the first step that has one for it. -/
theorem firstTarget?_proposals (steps : List LinkStep) (i : Nat) :
    firstTarget? (proposals steps) i = (steps.findSome? (LinkStep.target? i)).map UInt64.toNat := by
  induction steps with
  | nil => rfl
  | cons step rest ih =>
      cases step with
      | dangle base target => exact ih
      | propose base source target =>
          by_cases hi : source.toNat = i
          · simp [firstTarget?, proposals, LinkStep.proposal?, LinkStep.target?, hi]
          · rw [List.findSome?_cons, LinkStep.target?, if_neg hi, ← ih]
            simp [firstTarget?, proposals, LinkStep.proposal?, hi]

@[simp]
theorem size_applyLink (t : Table) (step : LinkStep) : (t.applyLink step).1.size = t.size := by
  unfold applyLink
  split
  · rfl
  · split
    · exact size_modify ..
    · split <;> rfl

@[simp]
theorem size_applyLinks (t : Table) (steps : List LinkStep) :
    (t.applyLinks steps).1.size = t.size := by
  induction steps generalizing t with
  | nil => rfl
  | cons step rest ih => exact (ih _).trans (size_applyLink t step)

/-- A step fills in a link that is still missing, and changes nothing else. -/
theorem get?_applyLink (t : Table) (step : LinkStep) (i : Nat) :
    (t.applyLink step).1.get? i =
      (t.get? i).map fun r => { r with link := r.link.or (step.target? i) } := by
  have hsame (r : Record) : { r with link := r.link.or none } = r := by rw [Option.or_none]
  cases step with
  | dangle base target => simp only [applyLink, LinkStep.target?, hsame, Option.map_id']
  | propose base source target =>
      by_cases hi : source.toNat = i
      · subst hi
        cases hr : t.get? source.toNat with
        | none => simp [applyLink, hr, get?_modify]
        | some r =>
            cases hlink : r.link with
            | none => simp [applyLink, hr, hlink, get?_modify, LinkStep.target?]
            | some existing =>
                simp only [applyLink, hr, Option.bind_some, hlink, Option.some_or, Option.map_some]
                rw [← hlink]
                split <;> exact hr
      · simp only [LinkStep.target?, if_neg hi, hsame, Option.map_id', applyLink]
        split
        · rw [get?_modify, if_neg hi]
        · split <;> rfl

theorem applyLinks_cons (t : Table) (step : LinkStep) (rest : List LinkStep) :
    t.applyLinks (step :: rest) =
      (((t.applyLink step).1.applyLinks rest).1,
        (t.applyLink step).2 ++ ((t.applyLink step).1.applyLinks rest).2) := rfl

/-- Steps fill in a link that is still missing with the first target asked for. -/
theorem get?_applyLinks (t : Table) (steps : List LinkStep) (i : Nat) :
    (t.applyLinks steps).1.get? i = (t.get? i).map fun r =>
      { r with link := r.link.or (steps.findSome? (LinkStep.target? i)) } := by
  induction steps generalizing t with
  | nil => simp [applyLinks]
  | cons step rest ih =>
      have hfirst : (step :: rest).findSome? (LinkStep.target? i) =
          (step.target? i).or (rest.findSome? (LinkStep.target? i)) := by
        rw [List.findSome?_cons]
        cases step.target? i <;> rfl
      rw [applyLinks_cons, ih, get?_applyLink, Option.map_map, hfirst]
      simp only [Function.comp_def, Option.or_assoc]

theorem link?_eq_bind (t : Table) (i : Nat) :
    t.link? i = ((t.get? i).bind (·.link)).map UInt64.toNat := by
  rw [link?, Option.map_bind]
  rfl

/-- A proposal raises a warning if its record leads elsewhere. -/
theorem warnings_propose (t : Table) (base source target : UInt64) :
    (t.applyLink (.propose base source target)).2 =
      (conflict? t.link? ⟨base.toNat, source.toNat, target.toNat⟩).toList := by
  rw [conflict?, link?_eq_bind]
  cases hlink : (t.get? source.toNat).bind (·.link) with
  | none => simp only [applyLink, hlink, Option.map_none, Option.bind_none, Option.toList_none]
  | some existing =>
      simp only [applyLink, hlink, Option.map_some, Option.bind_some, UInt64.toNat_inj]
      split
      · rfl
      · rw [UInt64.ofNat_toNat]
        rfl

/-- The first of some steps raises the warning that it would raise after all of them: a link that was
there is kept, and one that it fills in is its own. -/
theorem warnings_applyLink (t : Table) (step : LinkStep) (rest : List LinkStep) :
    ((t.applyLinks (step :: rest)).1.applyLink step).2 = (t.applyLink step).2 := by
  cases step with
  | dangle base target => rfl
  | propose base source target =>
      rw [warnings_propose, warnings_propose, conflict?, conflict?, link?, link?, get?_applyLinks]
      cases hr : t.get? source.toNat with
      | none => rfl
      | some r =>
          cases hlink : r.link with
          | none => simp [hlink, LinkStep.target?]
          | some existing => simp [hlink]

/-- Every step raises the warning that it would raise in the finished table. -/
theorem warnings_applyLinks (t : Table) (steps : List LinkStep) :
    (t.applyLinks steps).2 =
      steps.flatMap fun step => ((t.applyLinks steps).1.applyLink step).2 := by
  induction steps generalizing t with
  | nil => rfl
  | cons step rest ih =>
      rw [List.flatMap_cons, warnings_applyLink]
      exact congrArg ((t.applyLink step).2 ++ ·) (ih (t.applyLink step).1)

/-! ## The finished table -/

theorem isDangling_of_conflict? {link? : Nat → Option Nat} {p : Proposal} {w : Warning}
    (h : conflict? link? p = some w) : w.isDangling = false := by
  obtain ⟨existing, -, h⟩ := Option.bind_eq_some_iff.mp h
  split at h
  · cases h
  · cases h
    rfl

/-- Of a step, a warning about a missing record is left if it found one. -/
theorem filter_isDangling_applyLink (t : Table) (step : LinkStep) :
    (t.applyLink step).2.filter Warning.isDangling = step.missing?.toList := by
  cases step with
  | dangle base target => rfl
  | propose base source target =>
      rw [warnings_propose]
      refine List.filter_eq_nil_iff.mpr fun w hw => ?_
      rw [isDangling_of_conflict? (Option.mem_toList.mp hw)]
      exact Bool.false_ne_true

/-- Any other warning is about its proposal. -/
theorem filter_not_isDangling_applyLink (t : Table) (step : LinkStep) :
    (t.applyLink step).2.filter (!·.isDangling) =
      (step.proposal?.bind (conflict? t.link?)).toList := by
  cases step with
  | dangle base target => rfl
  | propose base source target =>
      rw [warnings_propose]
      refine List.filter_eq_self.mpr fun w hw => ?_
      rw [isDangling_of_conflict? (Option.mem_toList.mp hw), Bool.not_false]

/-- In a table without links, every record comes to lead where the first proposal for it does. -/
theorem link?_linked {t : Table} (hword : t.size ≤ maxWord) (hfree : ∀ i, t.link? i = none)
    (i : Nat) : t.linked.1.link? i = firstTarget? t.asked i := by
  rw [← proposals_linkSteps hword, firstTarget?_proposals, linked, link?, get?_applyLinks]
  cases hr : t.get? i with
  | some r =>
      have hnone : r.link = none := by simpa [link?, hr] using hfree i
      rw [Option.map_some, Option.bind_some, hnone, Option.none_or]
  | none =>
      rw [Option.map_none, Option.bind_none, ← firstTarget?_proposals, proposals_linkSteps hword,
        firstTarget?, eq_comm, Option.map_eq_none_iff, List.find?_eq_none]
      intro p hp hi
      have hsource := (inside_of_mem_asked hp).1
      rw [beq_iff_eq.mp hi] at hsource
      exact absurd hr (by rw [get?, Array.getElem?_eq_getElem hsource]; exact Option.some_ne_none _)

/-- Linking sets the link of every record to the target of the first proposal for it, and nothing else. -/
theorem get?_linked {t : Table} (hword : t.size ≤ maxWord) (hfree : ∀ i, t.link? i = none) (i : Nat) :
    t.linked.1.get? i = (t.get? i).map fun r =>
      { r with link := (firstTarget? t.asked i).map UInt64.ofNat } := by
  rw [← proposals_linkSteps hword, firstTarget?_proposals, linked, get?_applyLinks, Option.map_map]
  cases hr : t.get? i with
  | none => rfl
  | some r =>
      have hnone : r.link = none := by simpa [link?, hr] using hfree i
      simp only [Option.map_some, hnone, Option.none_or, Function.comp_def, UInt64.ofNat_toNat,
        Option.map_id']

/-- Every link leads to another record of the table. -/
def LinksInside (t : Table) : Prop :=
  ∀ i target, t.link? i = some target → target < t.size ∧ target ≠ i

/-- After linking, every link leads to another record of the table. -/
theorem linksInside_linked {t : Table} (hword : t.size ≤ maxWord) (hfree : ∀ i, t.link? i = none) :
    t.linked.1.LinksInside := by
  intro i target htarget
  rw [link?_linked hword hfree, firstTarget?, Option.map_eq_some_iff] at htarget
  obtain ⟨p, hp, rfl⟩ := htarget
  obtain rfl : p.source = i := by simpa using List.find?_some hp
  rw [linked, size_applyLinks]
  exact (inside_of_mem_asked (List.mem_of_find?_eq_some hp)).2

/-- Linking tells what each step would tell if all links were made before it. -/
theorem warnings_linked (t : Table) :
    t.linked.2 = t.linkSteps.flatMap fun step => (t.linked.1.applyLink step).2 :=
  warnings_applyLinks t t.linkSteps

/-- Each number outside the table that a record names is told once, in order. -/
theorem filter_isDangling_linked {t : Table} (hword : t.size ≤ maxWord) :
    t.linked.2.filter Warning.isDangling = (List.range t.size).flatMap fun i =>
      (t.missing i).map fun target => .dangling (UInt64.ofNat i) (UInt64.ofNat target)
        "attribute list target outside the table" := by
  rw [warnings_linked, List.filter_flatMap, ← missing_linkSteps hword,
    List.filterMap_eq_flatMap_toList]
  simp only [filter_isDangling_applyLink]

/-- The other warnings are about proposals for a record that leads elsewhere. -/
theorem filter_not_isDangling_linked {t : Table} (hword : t.size ≤ maxWord)
    (hfree : ∀ i, t.link? i = none) :
    t.linked.2.filter (!·.isDangling) = t.asked.filterMap (conflict? (firstTarget? t.asked)) := by
  rw [warnings_linked, List.filter_flatMap, ← funext (link?_linked hword hfree),
    ← proposals_linkSteps hword, proposals, List.filterMap_filterMap,
    List.filterMap_eq_flatMap_toList]
  simp only [filter_not_isDangling_applyLink]

/-- In a table without links, linking takes the proposals of the base records in their order.  Every
record comes to lead where the first proposal for it does, to another record of the table, and nothing
else of it changes.  The warnings are one for each number outside the table that a record names, and one
for each proposal whose record leads elsewhere. -/
theorem linked_takes_first (t : Table) (hword : t.size ≤ maxWord) (hfree : ∀ i, t.link? i = none) :
    proposals t.linkSteps = t.asked ∧
    (∀ i, t.linked.1.get? i = (t.get? i).map fun r =>
      { r with link := (firstTarget? t.asked i).map UInt64.ofNat }) ∧
    (∀ i target, t.linked.1.link? i = some target → target < t.size ∧ target ≠ i) ∧
    t.linked.2.filter Warning.isDangling = ((List.range t.size).flatMap fun i =>
      (t.missing i).map fun target => .dangling (UInt64.ofNat i) (UInt64.ofNat target)
        "attribute list target outside the table") ∧
    t.linked.2.filter (!·.isDangling) = t.asked.filterMap (conflict? (firstTarget? t.asked)) := by
  have hinside : t.linked.1.size = t.size := size_applyLinks t t.linkSteps
  exact ⟨proposals_linkSteps hword, get?_linked hword hfree,
    hinside ▸ linksInside_linked hword hfree, filter_isDangling_linked hword,
    filter_not_isDangling_linked hword hfree⟩

/-! ## Records claimed twice -/

/-- A record whose attribute list names other records. -/
def naming (id : UInt64) (records : List UInt64) : Record :=
  { Record.blank id (RecordHeader.decode []) with
    attributes := [⟨⟨.attributeList, 0, false, 0, 0, 0, 0, none⟩, .resident ⟨0, 0, 0⟩,
      .attributeList (records.map fun record => ⟨.data, 0, 0, 0, 0, ⟨record, 0⟩, 0, none⟩)⟩] }

/-- Both of the first two records claim the third one, each with another one after it. -/
def contested : Table := ⟨#[naming 0 [2, 9, 3, 2], naming 1 [2, 1, 4], naming 2 [], naming 3 [],
  naming 4 []]⟩

/-- The third record keeps the successor that the first record asked for. -/
theorem linked_takes_first_contested :
    contested.size ≤ maxWord ∧ (∀ i, contested.link? i = none) ∧
    contested.asked = [⟨0, 0, 2⟩, ⟨0, 2, 3⟩, ⟨1, 1, 2⟩, ⟨1, 2, 4⟩] ∧
    contested.linked.1.link? 2 = some 3 ∧
    contested.linked.2.filter Warning.isDangling =
      [.dangling 0 9 "attribute list target outside the table"] ∧
    contested.linked.2.filter (!·.isDangling) =
      [.corruption 2 "already linked to 3, link to 4 from base 1 dropped"] := by
  have hword : contested.size ≤ maxWord := by decide
  have hfree : ∀ i, contested.link? i = none := by
    rintro (_ | _ | _ | _ | _ | i) <;> rfl
  have hasked : contested.asked = [⟨0, 0, 2⟩, ⟨0, 2, 3⟩, ⟨1, 1, 2⟩, ⟨1, 2, 4⟩] := by
    decide +kernel
  obtain ⟨-, -, -, hdangling, hconflicts⟩ := linked_takes_first contested hword hfree
  refine ⟨hword, hfree, hasked, ?_, ?_, ?_⟩
  · rw [link?_linked hword hfree, hasked]
    rfl
  · rw [hdangling]
    decide +kernel
  · rw [hconflicts, hasked]
    decide +kernel

end Table

end Ntfs
