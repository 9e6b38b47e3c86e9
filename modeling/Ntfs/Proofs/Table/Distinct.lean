import Mathlib.Logic.Function.Basic

/-!
# Items each once

What is left of a list when repetitions are dropped: no item comes twice, and it does not matter whether
repetitions are dropped before or after some items are left out, or all are renamed.
-/

namespace Ntfs

theorem length_filter_lt_cons {α : Type} (p : α → Bool) (a : α) (rest : List α) :
    (rest.filter p).length < (a :: rest).length :=
  Nat.lt_succ_of_le (List.length_filter_le p rest)

section EraseDups

variable {α β : Type} [BEq α] [LawfulBEq α] [BEq β] [LawfulBEq β]

theorem nodup_eraseDups (items : List α) : items.eraseDups.Nodup := by
  match items with
  | [] => exact List.nodup_nil
  | a :: rest =>
      rw [List.eraseDups_cons, List.nodup_cons]
      exact ⟨by simp, nodup_eraseDups _⟩
termination_by items.length
decreasing_by exact length_filter_lt_cons ..

/-- Items may be dropped before repetitions are, or after. -/
theorem filter_eraseDups (p : α → Bool) (items : List α) :
    items.eraseDups.filter p = (items.filter p).eraseDups := by
  match items with
  | [] => rfl
  | a :: rest =>
      rw [List.eraseDups_cons]
      by_cases ha : p a = true
      · rw [List.filter_cons_of_pos ha, List.filter_cons_of_pos ha, List.eraseDups_cons,
          filter_eraseDups p, List.filter_filter, List.filter_filter]
        simp only [Bool.and_comm]
      · -- the other copies of `a` go either way
        have hcopies : (rest.filter fun b => !b == a).filter p = rest.filter p := by
          rw [List.filter_filter]
          refine List.filter_congr fun b _ => ?_
          by_cases hb : b = a
          · simp [hb, ha]
          · simp [hb]
        rw [List.filter_cons_of_neg ha, List.filter_cons_of_neg ha, filter_eraseDups p, hcopies]
termination_by items.length
decreasing_by all_goals exact length_filter_lt_cons ..

theorem map_eraseDups {f : α → β} (hf : Function.Injective f) (items : List α) :
    items.eraseDups.map f = (items.map f).eraseDups := by
  match items with
  | [] => rfl
  | a :: rest =>
      have hsame (b : α) : (f b == f a) = (b == a) := by
        rw [Bool.eq_iff_iff, beq_iff_eq, beq_iff_eq, hf.eq_iff]
      rw [List.eraseDups_cons, List.map_cons, map_eraseDups hf, List.map_cons, List.eraseDups_cons,
        List.filter_map]
      simp only [Function.comp_def, hsame]
termination_by items.length
decreasing_by exact length_filter_lt_cons ..

end EraseDups

end Ntfs
