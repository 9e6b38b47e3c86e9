import Ntfs.Proofs.RunList.Clusters

/-!
# Looking up a cluster

A run covers the clusters of the content from its start, which is the sum of the lengths in front of it,
up to the start of the next one.  `lcnForVcn_iff_covered` says that a cluster of the content is found if
and only if an allocated run covers it inside the 64-bit cluster space, and where it is found; so nothing
is found behind the last run, in a sparse run, or from the first run on that ends past this space.
-/

namespace Ntfs.RunList

/-- The first cluster of the content that run `k` holds: the sum of the lengths of the first `k` runs. -/
def start (l : RunList) (k : Nat) : Nat := clusters (l.runs.take k)

variable {l : RunList} {k vcn : Nat} {r : Run}

theorem start_succ (h : l.runs[k]? = some r) : l.start (k + 1) = l.start k + r.length.toNat := by
  rw [start, start, List.take_add_one, h]
  simp

theorem start_mono {j k : Nat} (h : j ≤ k) : l.start j ≤ l.start k := by
  have hsplit : l.runs.take k = l.runs.take j ++ (l.runs.drop j).take (k - j) := by
    rw [← List.take_add, Nat.add_sub_cancel' h]
  rw [start, start, hsplit, clusters_append]
  exact Nat.le_add_right _ _

theorem start_le_clusters (l : RunList) (k : Nat) : l.start k ≤ clusters l.runs := by
  have hsplit := clusters_append (l.runs.take k) (l.runs.drop k)
  rw [List.take_append_drop] at hsplit
  rw [hsplit]
  exact Nat.le_add_right _ _

/-- What a run covers is told by the run. -/
theorem lcnForVcn_of_covered (hr : l.runs[k]? = some r) (hfrom : l.start k ≤ vcn)
    (hto : vcn < l.start (k + 1)) (hspace : l.start (k + 1) ≤ maxWord) :
    l.lcnForVcn vcn = r.lcn.bind fun lcn =>
      if lcn.toNat + (vcn - l.start k) ≤ maxWord then some (lcn.toNat + (vcn - l.start k)) else none := by
  obtain ⟨hk, hget⟩ := List.getElem?_eq_some_iff.mp hr
  have hsplit : l.runs = l.runs.take k ++ r :: l.runs.drop (k + 1) := by
    rw [← hget, ← List.drop_eq_getElem_cons hk, List.take_append_drop]
  rw [start_succ hr, start] at hto hspace
  have hlookup : lcnFrom 0 vcn (l.runs.take k ++ r :: l.runs.drop (k + 1)) = _ :=
    lcnFrom_append (by omega) (by rw [Nat.zero_add]; exact hfrom) (by omega)
  rw [← hsplit, Nat.zero_add] at hlookup
  exact hlookup

/-- What is found is covered by a run, which ends inside the cluster space. -/
theorem exists_covered_of_lcnFrom {base found : Nat} {runs : List Run} (hbase : base ≤ vcn)
    (h : lcnFrom base vcn runs = some found) :
    ∃ k, k < runs.length ∧ base + clusters (runs.take k) ≤ vcn ∧
      vcn < base + clusters (runs.take (k + 1)) ∧ base + clusters (runs.take (k + 1)) ≤ maxWord := by
  induction runs generalizing base with
  | nil => cases h
  | cons r rest ih =>
      rw [lcnFrom] at h
      dsimp only at h
      split at h
      · cases h
      · rename_i hspace
        split at h
        · rename_i hlt
          exact ⟨0, Nat.zero_lt_succ _, by simpa using hbase, by simpa using hlt, by simpa using hspace⟩
        · rename_i hpast
          obtain ⟨k, hk, hfrom, hto, hend⟩ := ih (Nat.not_lt.mp hpast) h
          refine ⟨k + 1, Nat.succ_lt_succ hk, ?_⟩
          simp only [List.take_succ_cons, clusters_cons, ← Nat.add_assoc]
          exact ⟨hfrom, hto, hend⟩

/-- Nothing is found for a cluster that only a run past the cluster space covers, or none. -/
theorem lcnForVcn_eq_none (h : ∀ k, l.start k ≤ vcn → vcn < l.start (k + 1) →
    maxWord < l.start (k + 1)) : l.lcnForVcn vcn = none := by
  rw [Option.eq_none_iff_forall_ne_some]
  intro found hfound
  obtain ⟨k, -, hcovered⟩ := exists_covered_of_lcnFrom (Nat.zero_le vcn) hfound
  simp only [Nat.zero_add] at hcovered
  exact Nat.not_lt.mpr hcovered.2.2 (h k hcovered.1 hcovered.2.1)

theorem totalClusters_eq (l : RunList) : l.totalClusters = min (clusters l.runs) maxWord := by
  have hfold (total : Nat) (runs : List Run) (h : total ≤ maxWord) :
      runs.foldl (fun total r => min (total + r.length.toNat) maxWord) total =
        min (total + clusters runs) maxWord := by
    induction runs generalizing total with
    | nil => exact (Nat.min_eq_left h).symm
    | cons r rest ih =>
        rw [List.foldl_cons, ih _ (Nat.min_le_right ..), clusters_cons]
        omega
  rw [totalClusters, hfold 0 l.runs (Nat.zero_le _), Nat.zero_add]

/-- A cluster of the content is found if and only if an allocated run covers it and both its place and
the end of the run lie in the 64-bit cluster space; it lies as far behind the first cluster of the run as
it lies behind the start of the run.  Nothing is found past the clusters of the list, in a sparse run, or
from a run on that ends past the cluster space.  The clusters of the list are the sum of the lengths,
capped at the largest word. -/
theorem lcnForVcn_iff_covered (l : RunList) :
    (∀ vcn found, l.lcnForVcn vcn = some found ↔
      ∃ k r lcn, l.runs[k]? = some r ∧ r.lcn = some lcn ∧
        l.start k ≤ vcn ∧ vcn < l.start (k + 1) ∧ l.start (k + 1) ≤ maxWord ∧
        found = lcn.toNat + (vcn - l.start k) ∧ found ≤ maxWord) ∧
    (∀ vcn, l.totalClusters ≤ vcn → l.lcnForVcn vcn = none) ∧
    (∀ k r, l.runs[k]? = some r → r.isSparse = true →
      ∀ vcn, l.start k ≤ vcn → vcn < l.start (k + 1) → l.lcnForVcn vcn = none) ∧
    (∀ k, maxWord < l.start (k + 1) → ∀ vcn, l.start k ≤ vcn → l.lcnForVcn vcn = none) ∧
    l.totalClusters = min (clusters l.runs) maxWord := by
  have hpast (k : Nat) (hend : maxWord < l.start (k + 1)) (vcn : Nat) (hfrom : l.start k ≤ vcn) :
      l.lcnForVcn vcn = none := by
    refine lcnForVcn_eq_none fun j _ hto => ?_
    by_cases hlt : j < k
    · have hle : l.start (j + 1) ≤ l.start k := start_mono hlt
      omega
    · have hle : l.start (k + 1) ≤ l.start (j + 1) := start_mono (by omega)
      omega
  refine ⟨fun vcn found => ⟨fun hfound => ?_, ?_⟩, fun vcn htotal => ?_,
    fun k r hr hsparse vcn hfrom hto => ?_, hpast, l.totalClusters_eq⟩
  · obtain ⟨k, hk, hcovered⟩ := exists_covered_of_lcnFrom (Nat.zero_le vcn) hfound
    simp only [Nat.zero_add] at hcovered
    obtain ⟨hfrom, hto, hspace⟩ := hcovered
    have hr : l.runs[k]? = some l.runs[k] := List.getElem?_eq_getElem hk
    rw [lcnForVcn_of_covered hr hfrom hto hspace, Option.bind_eq_some_iff] at hfound
    obtain ⟨lcn, hlcn, hplace⟩ := hfound
    rw [Option.ite_none_right_eq_some] at hplace
    obtain ⟨hword, hplace⟩ := hplace
    obtain rfl := Option.some.inj hplace
    exact ⟨k, _, lcn, hr, hlcn, hfrom, hto, hspace, rfl, hword⟩
  · rintro ⟨k, r, lcn, hr, hlcn, hfrom, hto, hspace, rfl, hword⟩
    rw [lcnForVcn_of_covered hr hfrom hto hspace, hlcn, Option.bind_some, if_pos hword]
  · refine lcnForVcn_eq_none fun k _ hto => ?_
    have hle := l.start_le_clusters (k + 1)
    rw [totalClusters_eq] at htotal
    omega
  · by_cases hspace : l.start (k + 1) ≤ maxWord
    · rw [lcnForVcn_of_covered hr hfrom hto hspace, Option.isNone_iff_eq_none.mp hsparse]
      rfl
    · exact hpast k (Nat.lt_of_not_le hspace) vcn hfrom

/-- Four clusters, two sparse ones, a run that ends just inside the cluster space, and one across its
end. -/
def wide : RunList :=
  decode [0x11, 4, 0x10, 0x01, 2, 0x18, 0xF8, 0xFF, 0xFF, 0xFF, 0xFF, 0xFF, 0xFF, 0xFF, 0xF5,
    0x11, 5, 0x10, 0]

/-- A run that ends just inside the cluster space, a sparse one, and one across the end. -/
theorem lcnForVcn_iff_covered_wide :
    wide.lcnForVcn 0xFFFFFFFFFFFFFFFD = some 0xFFFFFFFFFFFFFFFC ∧ wide.lcnForVcn 5 = none ∧
      wide.lcnForVcn 0xFFFFFFFFFFFFFFFE = none ∧ wide.lcnForVcn maxWord = none := by
  obtain ⟨hcovered, hpast, hsparse, hspace, -⟩ := lcnForVcn_iff_covered wide
  refine ⟨(hcovered _ _).mpr ⟨2, ⟨0xFFFFFFFFFFFFFFF8, -11, some 5⟩, 5, ?_⟩,
    hsparse 1 ⟨2, 0, none⟩ ?_ rfl 5 ?_ ?_, hspace 3 ?_ _ ?_, hpast _ ?_⟩
  all_goals decide +kernel

end Ntfs.RunList
