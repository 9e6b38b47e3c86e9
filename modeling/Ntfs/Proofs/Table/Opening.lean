import Ntfs.Content.Stream
import Ntfs.Table.Sizes

/-!
# Where content opens

The content of a file starts with an attribute that is unnamed `$DATA` and resident, or begins at cluster
number zero.  A record holds such an attribute in any place (`HoldsStart`), but a table takes it for the
one that opens the content only if no other unnamed `$DATA` stands in front of it (`Opens`).  The first
record of a chain that opens the content says how long the file is, and without one it is the size that
indexes give.
-/

namespace Ntfs

/-- The content of a file starts with this attribute: it is unnamed `$DATA`, resident or starting at
cluster number zero. -/
def Attribute.StartsContent (a : Attribute) : Prop :=
  (a.kind = .data ∧ a.name = none) ∧
    ∀ form, a.residency = .nonResident form → form.startVcn = 0

theorem StreamKey.selects_content {a : Attribute} :
    content.selects a = true ↔ a.kind = .data ∧ a.name = none := by
  rw [selects, content, Bool.and_eq_true_iff, beq_iff_eq, beq_iff_eq]

theorem Attribute.startsContent_iff {a : Attribute} :
    a.StartsContent ↔ StreamKey.content.selects a = true ∧ a.isFirstExtent = true := by
  rw [StartsContent, StreamKey.selects_content, isFirstExtent]
  cases a.residency with
  | resident form => simp
  | nonResident form => simp

namespace Table

/-- Record `c` opens the content of a file with `a`: the first of its unnamed `$DATA` attributes, which
is where the content starts. -/
def Opens (t : Table) (c : Nat) (a : Attribute) : Prop :=
  ∃ r before after, t.get? c = some r ∧ r.attributes = before ++ a :: after ∧
    (∀ b ∈ before, ¬ (b.kind = .data ∧ b.name = none)) ∧ a.StartsContent

/-- A record opens the content of a file with its unnamed stream, if that is a first extent. -/
theorem opens_iff {t : Table} {c : Nat} {a : Attribute} :
    t.Opens c a ↔ (t.get? c).bind (·.stream? none) = some a ∧ a.isFirstExtent = true := by
  rw [Option.bind_eq_some_iff]
  simp only [Opens, Attribute.startsContent_iff, Record.stream?, List.find?_eq_some_iff_append,
    ← StreamKey.selects_content, StreamKey.selects, StreamKey.content, Bool.not_eq_true',
    Bool.not_eq_true]
  constructor
  · rintro ⟨r, before, after, hr, hattributes, hbefore, hcontent, hfirst⟩
    exact ⟨⟨r, hr, hcontent, before, after, hattributes, hbefore⟩, hfirst⟩
  · rintro ⟨⟨r, hr, hcontent, before, after, hattributes, hbefore⟩, hfirst⟩
    exact ⟨r, before, after, hr, hattributes, hbefore, hcontent, hfirst⟩

/-- The first extent of a file is found record by record. -/
theorem firstExtent?_eq (t : Table) (id : Nat) :
    t.firstExtent? id =
      ((t.chain id).find? fun c => ((t.get? c).bind (·.stream? none)).any (·.isFirstExtent)).bind
        fun c => (t.get? c).bind (·.stream? none) := by
  rw [firstExtent?, chainRecords, List.filterMap_filterMap, List.find?_filterMap]

theorem any_isFirstExtent_eq_false {t : Table} {c : Nat} (h : ∀ a, ¬ t.Opens c a) :
    ((t.get? c).bind (·.stream? none)).any (·.isFirstExtent) = false := by
  rw [Option.any_eq_false]
  intro a ha
  rw [← Bool.not_eq_true]
  exact fun hfirst => h a (opens_iff.mpr ⟨ha, hfirst⟩)

/-- Without a record that opens it, a file has the size that indexes give. -/
theorem logicalSize?_of_not_opens {t : Table} {id : Nat}
    (h : ∀ c ∈ t.chain id, ∀ a, ¬ t.Opens c a) :
    t.logicalSize? id = (t.get? id).bind (·.derivedSize) := by
  have hnone : t.firstExtent? id = none := by
    rw [firstExtent?_eq, List.find?_eq_none.mpr fun c hc => ?_, Option.bind_none]
    rw [any_isFirstExtent_eq_false (h c hc)]
    exact Bool.false_ne_true
  rw [logicalSize?, hnone, Option.map_none, Option.none_or]

/-- The first record of the chain that opens the file says how long it is. -/
theorem logicalSize?_of_opens {t : Table} {id c : Nat} {before after : List Nat} {a : Attribute}
    (hchain : t.chain id = before ++ c :: after) (ha : t.Opens c a)
    (hbefore : ∀ b ∈ before, ∀ a', ¬ t.Opens b a') : t.logicalSize? id = some a.contentSize := by
  obtain ⟨hstream, hfirst⟩ := opens_iff.mp ha
  have hfound : t.firstExtent? id = some a := by
    rw [firstExtent?_eq, hchain, List.find?_append,
      List.find?_eq_none.mpr fun b hb => ?_, Option.none_or, List.find?_cons_of_pos ?_,
      Option.bind_some, hstream]
    · rw [hstream, Option.any_some, hfirst]
    · rw [any_isFirstExtent_eq_false (hbefore b hb)]
      exact Bool.false_ne_true
  rw [logicalSize?, hfound, Option.map_some, Option.some_or]

/-- Record `c` holds the start of the content of a file, behind other attributes or not. -/
def HoldsStart (t : Table) (c : Nat) : Prop :=
  ∃ r, t.get? c = some r ∧ ∃ a ∈ r.attributes, a.StartsContent

theorem Opens.holdsStart {t : Table} {c : Nat} {a : Attribute} (h : t.Opens c a) :
    t.HoldsStart c := by
  obtain ⟨r, before, after, hr, hattributes, -, hstarts⟩ := h
  refine ⟨r, hr, a, ?_, hstarts⟩
  rw [hattributes]
  exact List.mem_append_right _ List.mem_cons_self

/-- Some record of a chain that holds the start comes first. -/
theorem exists_first_holdsStart {t : Table} {chain : List Nat} (h : ∃ c ∈ chain, t.HoldsStart c) :
    ∃ before c after, chain = before ++ c :: after ∧ t.HoldsStart c ∧
      ∀ b ∈ before, ¬ t.HoldsStart b := by
  classical
  have hsome : (chain.find? fun c => decide (t.HoldsStart c)).isSome := by
    simpa [List.find?_isSome] using h
  obtain ⟨c, hc⟩ := Option.isSome_iff_exists.mp hsome
  obtain ⟨hstart, before, after, hchain, hbefore⟩ := List.find?_eq_some_iff_append.mp hc
  exact ⟨before, c, after, hchain, of_decide_eq_true hstart, fun b hb => by simpa using hbefore b hb⟩

end Table

end Ntfs
