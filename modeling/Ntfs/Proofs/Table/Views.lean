import Ntfs.CommandLine.View
import Ntfs.Proofs.Content.Placement
import Ntfs.Proofs.Json.Decode
import Ntfs.Proofs.Table.Invariant
import Ntfs.Proofs.Table.Opening
import Ntfs.Proofs.Table.Trail

/-!
# The size in the two views of a file

A single file is shown as text or as JSON.  The text tells the size that its record knows, and the JSON
that of the whole chain.  They agree if the record opens the content itself, or if nothing in the chain
does and the record holds no part of it either (`views_tell_sizes`).  A file whose content is opened by a
record that extends it has its size in the JSON only (`views_disagree`).
-/

namespace Ntfs

namespace Json

theorem sortedMembers_eq (members : List (String × Json)) :
    sortedMembers members = members.map fun m => (m.1, m.2.sorted) := by
  induction members with
  | nil => rfl
  | cons m rest ih =>
      obtain ⟨name, j⟩ := m
      rw [sortedMembers, ih, List.map_cons]

/-- A member is found under its name after sorting too, if no other has it. -/
theorem members?_sorted {members : List (String × Json)} (hnodup : (members.map Prod.fst).Nodup)
    {m : String × Json} (hm : m ∈ members) :
    members? [m.1] (sorted (.obj members)) = some [some m.2.sorted] := by
  have hperm := List.mergeSort_perm (sortedMembers members) nameLE
  rw [sortedMembers_eq] at hperm
  have hmem : (m.1, m.2.sorted) ∈ (members.map fun m => (m.1, m.2.sorted)).mergeSort nameLE :=
    hperm.mem_iff.mpr (List.mem_map_of_mem hm)
  have hnames : ((members.map fun m => (m.1, m.2.sorted)).mergeSort nameLE).map Prod.fst |>.Nodup := by
    rw [(hperm.map Prod.fst).nodup_iff, List.map_map]
    exact hnodup
  rw [sorted, sortedMembers_eq, members?, List.map_singleton]
  exact congrArg (fun value => some [value]) (lookup_of_mem hnames hmem)

end Json

/-- The cell beside "Logical size" in the table that the text view starts with. -/
def Record.sizeCell? (r : Record) : Option String :=
  (r.headerRows.find? fun row => row.head? == some "Logical size").bind fun row => row[1]?

/-- The text view of a record tells a size, or has no row for it. -/
def Record.TextTells (r : Record) (size : Option UInt64) : Prop := r.sizeCell? = size.map toString

/-- The size is the last row, and no other has its name. -/
theorem Record.textTells_logicalSize? (r : Record) : r.TextTells r.logicalSize? := by
  rw [TextTells, sizeCell?, headerRows]
  simp only [List.find?_append]
  cases r.logicalSize? <;> cases r.link <;> cases r.parent <;> cases r.isExtension <;> simp

/-- The text view tells one size at most. -/
theorem Record.TextTells.unique {r : Record} {left right : Option UInt64} (hleft : r.TextTells left)
    (hright : r.TextTells right) : left = right := by
  refine Option.map_injective (fun m n hmn => ?_) (hleft.symm.trans hright)
  have hdigits : Nat.toDigits 10 m.toNat = Nat.toDigits 10 n.toNat := by
    rw [← Nat.toList_repr, ← Nat.toList_repr]
    exact congrArg String.toList hmn
  have hnumber := congrArg (fun digits => Nat.ofDigitChars 10 digits 0) hdigits
  simp only [Nat.ofDigitChars_ten_toDigits] at hnumber
  exact UInt64.toNat_inj.mp hnumber

namespace Table

/-- The JSON view of a record tells a size, or `null`. -/
def JsonTells (t : Table) (r : Record) (size : Option UInt64) : Prop :=
  Json.members? ["logical_size"] (t.fileJson r).sorted = some [some (word64 size)]

theorem jsonTells_logicalSize? (t : Table) (r : Record) :
    t.JsonTells r (t.logicalSize? r.id.toNat) := by
  have hsorted : (word64 (t.logicalSize? r.id.toNat)).sorted = word64 (t.logicalSize? r.id.toNat) := by
    cases t.logicalSize? r.id.toNat <;> rfl
  obtain ⟨members, hmembers, hnodup, hmem⟩ : ∃ members, t.fileJson r = .obj members ∧
      (members.map Prod.fst).Nodup ∧
      ("logical_size", word64 (t.logicalSize? r.id.toNat)) ∈ members :=
    ⟨_, rfl, by simp, by simp⟩
  rw [JsonTells, hmembers, Json.members?_sorted hnodup hmem, hsorted]

/-- Both views tell the same size, or none. -/
def ViewsAgree (t : Table) (r : Record) : Prop := ∃ size, r.TextTells size ∧ t.JsonTells r size

/-- The JSON view tells one size at most. -/
theorem JsonTells.unique {t : Table} {r : Record} {left right : Option UInt64}
    (hleft : t.JsonTells r left) (hright : t.JsonTells r right) : left = right := by
  have hvalue : word64 left = word64 right := by
    simpa using hleft.symm.trans hright
  have hread (size : Option UInt64) : Json.optional Json.u64? (some (word64 size)) = some size :=
    Json.optional_opt rfl fun n _ => Json.u64?_nat n
  exact Option.some.inj ((hread left).symm.trans (hvalue ▸ hread right))

/-- The views agree if and only if what the record knows is the size of the file. -/
theorem viewsAgree_iff {t : Table} {r : Record} :
    t.ViewsAgree r ↔ r.logicalSize? = t.logicalSize? r.id.toNat := by
  constructor
  · rintro ⟨size, htext, hjson⟩
    rw [r.textTells_logicalSize?.unique htext, (t.jsonTells_logicalSize? r).unique hjson]
  · intro heq
    exact ⟨_, r.textTells_logicalSize?, heq ▸ t.jsonTells_logicalSize? r⟩

/-- The text tells the size of the first unnamed `$DATA` of the record, the JSON that of the first one in the
chain which opens the content, and both a size from an index where there is none.  So they agree if the
record opens the content itself, and if there is none for either. -/
theorem views_tell_sizes (options : TableOptions) (raw : Buffer) (hword : raw.size ≤ maxWord) (t : Table)
    (h : (build options raw).result = .ok t) (id : Nat) (hid : id < t.size) :
    ∃ r, t.get? id = some r ∧
      (∀ a, r.stream? none = some a → r.TextTells (some a.contentSize)) ∧
      (r.stream? none = none → r.TextTells r.derivedSize) ∧
      (∀ before c after a, t.chain id = before ++ c :: after → t.Opens c a →
        (∀ b ∈ before, ∀ a', ¬ t.Opens b a') → t.JsonTells r (some a.contentSize)) ∧
      ((∀ c ∈ t.chain id, ∀ a, ¬ t.Opens c a) → t.JsonTells r r.derivedSize) ∧
      (t.ViewsAgree r ↔ r.logicalSize? = t.logicalSize? id) ∧
      ((∃ a, t.Opens id a) ∨ r.stream? none = none ∧ (∀ c ∈ t.chain id, ∀ a, ¬ t.Opens c a) →
        t.ViewsAgree r) := by
  obtain ⟨r, hr, hbears⟩ := exists_record_of_build hword h hid
  have htext := r.textTells_logicalSize?
  have hjson := t.jsonTells_logicalSize? r
  rw [hbears] at hjson
  have hown (a : Attribute) (ha : r.stream? none = some a) : r.TextTells (some a.contentSize) := by
    rwa [Record.logicalSize?, ha] at htext
  have hindexed (hnone : r.stream? none = none) : r.TextTells r.derivedSize := by
    rwa [Record.logicalSize?, hnone] at htext
  have hopened (before : List Nat) (c : Nat) (after : List Nat) (a : Attribute)
      (hchain : t.chain id = before ++ c :: after) (ha : t.Opens c a)
      (hbefore : ∀ b ∈ before, ∀ a', ¬ t.Opens b a') : t.JsonTells r (some a.contentSize) := by
    rwa [logicalSize?_of_opens hchain ha hbefore] at hjson
  have hunopened (hnone : ∀ c ∈ t.chain id, ∀ a, ¬ t.Opens c a) : t.JsonTells r r.derivedSize := by
    rwa [logicalSize?_of_not_opens hnone, hr] at hjson
  refine ⟨r, hr, hown, hindexed, hopened, hunopened, hbears ▸ viewsAgree_iff, ?_⟩
  rintro (⟨a, ha⟩ | ⟨hnone, hunheld⟩)
  · have hstream : r.stream? none = some a := by
      have := (opens_iff.mp ha).1
      rwa [hr] at this
    obtain ⟨rest, hchain⟩ := exists_chain_eq_cons hid
    exact ⟨_, hown a hstream, hopened [] id rest a hchain ha fun _ hb => absurd hb List.not_mem_nil⟩
  · exact ⟨_, hindexed hnone, hunopened hunheld⟩

open Content (splitRecords splitTable recordOf listOf listed extentAt)

/-- The second record opens the content of the file, and both views of it tell its size. -/
theorem views_tell_sizes_split :
    (Buffer.ofList (splitRecords true).flatten).size ≤ maxWord ∧
    (build ⟨none, none⟩ (Buffer.ofList (splitRecords true).flatten)).result = .ok (splitTable true) ∧
    1 < (splitTable true).size ∧
    ∃ r, (splitTable true).get? 1 = some r ∧ r.TextTells (some 2) ∧ (splitTable true).ViewsAgree r := by
  have hsize : (Buffer.ofList (splitRecords true).flatten).size = 3 * Record.size := by
    rw [← Buffer.length_toList, Buffer.toList_ofList]
    decide +kernel
  have hword : (Buffer.ofList (splitRecords true).flatten).size ≤ maxWord := by
    rw [hsize]
    decide
  have hbuild := Content.build_splitRecords true
  have hopens : (splitTable true).Opens 1 (extentAt 0 2) := opens_iff.mpr ⟨rfl, rfl⟩
  obtain ⟨r, hr, hown, -, -, -, -, hagree⟩ :=
    views_tell_sizes ⟨none, none⟩ _ hword _ hbuild 1 (by decide)
  have hstream : r.stream? none = some (extentAt 0 2) := by
    cases hr
    rfl
  exact ⟨hword, hbuild, by decide, r, hr, hown _ hstream, hagree (.inl ⟨_, hopens⟩)⟩

/-- The content of this file is two bytes long.  The text view of its first record, which holds nothing but
the list of the others, has no row for the size. -/
theorem views_disagree :
    (build ⟨none, none⟩ (Buffer.ofList (splitRecords true).flatten)).result = .ok (splitTable true) ∧
    0 < (splitTable true).size ∧
    ∃ r, (splitTable true).get? 0 = some r ∧ r.TextTells none ∧
      (splitTable true).JsonTells r (some 2) ∧ ¬ (splitTable true).ViewsAgree r := by
  let r := recordOf 0 [listOf (listed true)] (some 2)
  have htext : r.TextTells none := Record.textTells_logicalSize? r
  have hlogical : (splitTable true).logicalSize? 0 = some 2 := by
    rw [logicalSize?, firstExtent?, chainRecords, Content.chain_splitTable]
    rfl
  have hjson := (splitTable true).jsonTells_logicalSize? r
  rw [show r.id.toNat = 0 from rfl, hlogical] at hjson
  refine ⟨Content.build_splitRecords true, by decide, r, rfl, htext, hjson, ?_⟩
  rw [viewsAgree_iff, show r.id.toNat = 0 from rfl, hlogical]
  exact (Option.some_ne_none (2 : UInt64)).symm

end Table

end Ntfs
