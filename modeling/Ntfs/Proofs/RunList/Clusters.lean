import Ntfs.RunList

/-!
# The clusters of a run list

`clusters` counts what runs cover, in exact numbers.  Looking up a cluster of the content walks over
the runs before the one that covers it, so the answer is told by that run alone (`lcnFrom_append`).
-/

namespace Ntfs.RunList

def clusters : List Run → Nat
  | [] => 0
  | r :: rest => r.length.toNat + clusters rest

@[simp]
theorem clusters_nil : clusters [] = 0 := rfl

@[simp]
theorem clusters_cons (r : Run) (rest : List Run) :
    clusters (r :: rest) = r.length.toNat + clusters rest := rfl

@[simp]
theorem clusters_append (before after : List Run) :
    clusters (before ++ after) = clusters before + clusters after := by
  induction before with
  | nil => simp
  | cons r rest ih => rw [List.cons_append, clusters_cons, clusters_cons, ih, Nat.add_assoc]

/-- The lookup passes over the runs in front of the one that covers the cluster. -/
theorem lcnFrom_append {base vcn : Nat} {before after : List Run} {r : Run}
    (hbound : base + clusters before + r.length.toNat ≤ maxWord)
    (hfrom : base + clusters before ≤ vcn)
    (hto : vcn < base + clusters before + r.length.toNat) :
    lcnFrom base vcn (before ++ r :: after) = r.lcn.bind fun lcn =>
      if lcn.toNat + (vcn - (base + clusters before)) ≤ maxWord
      then some (lcn.toNat + (vcn - (base + clusters before))) else none := by
  induction before generalizing base with
  | nil =>
      simp only [clusters_nil, Nat.add_zero] at hbound hfrom hto
      simp only [List.nil_append, lcnFrom, clusters_nil, Nat.add_zero]
      rw [if_neg (by omega), if_pos hto]
      rfl
  | cons first before ih =>
      simp only [clusters_cons, ← Nat.add_assoc] at hbound hfrom hto
      rw [List.cons_append, lcnFrom, if_neg (by omega), if_neg (by omega),
        ih hbound hfrom hto, clusters_cons, ← Nat.add_assoc]

end Ntfs.RunList
