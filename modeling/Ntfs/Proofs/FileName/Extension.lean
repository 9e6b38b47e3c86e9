import Ntfs.Attribute.FileName
import Ntfs.Proofs.Text.Utf16

/-!
# Extensions of file names

The extension of a name is what stands behind its last dot.  It is compared in lower case, and lower case
neither adds nor removes a dot (`dot_mem_mapFrom_iff`).  So an extension without a dot is that of exactly
the names that end in it, and one with a dot is that of no name (`extension?_eq_lower_iff`).
-/

namespace Ntfs

namespace Lowercase

theorem ofNat_eq_dot_iff {n : Nat} : Char.ofNat n = '.' ↔ n = 0x2E := by
  constructor
  · intro h
    by_cases hvalid : n.isValidChar
    · rw [← Utf16.toNat_ofNat_of_isValidChar hvalid, h]
      rfl
    · rw [Char.ofNat, dif_neg hvalid] at h
      exact absurd h (by decide)
  · rintro rfl
    rfl

/-- Every row of the table leads past the dot. -/
theorem dot_lt_of_mem_shifts {first last step : Nat} {shift : Int}
    (h : (first, last, step, shift) ∈ CaseTable.shifts) : 0x2E < (first : Int) + shift := by
  have hall : ∀ row ∈ CaseTable.shifts, 0x2E < (row.1 : Int) + row.2.2.2 := by decide +kernel
  exact hall _ h

/-- Nothing but the dot becomes a dot in lower case. -/
theorem simple_eq_dot_iff {c : Char} : simple c = '.' ↔ c = '.' := by
  have hdot : '.'.toNat = 0x2E := rfl
  have hne : ∀ {d : Char}, 0x2E < d.toNat → d ≠ '.' := by
    rintro d hd rfl
    omega
  rw [simple]
  dsimp only
  split
  · split
    · rename_i hcapital
      simp only [Bool.and_eq_true, decide_eq_true_eq] at hcapital
      rw [ofNat_eq_dot_iff]
      exact ⟨fun h => by omega, fun h => absurd h (hne (by omega))⟩
    · rfl
  · rename_i hascii
    have hc : c ≠ '.' := hne (by omega)
    split
    · rename_i first last step shift hrow
      have hinside := List.find?_some hrow
      simp only [Bool.and_eq_true, decide_eq_true_eq] at hinside
      have hpast := dot_lt_of_mem_shifts (List.mem_of_find?_eq_some hrow)
      rw [ofNat_eq_dot_iff]
      exact ⟨fun h => by omega, fun h => absurd h hc⟩
    · rfl

/-- Lower case keeps the dots of a text. -/
theorem dot_mem_mapFrom_iff (before rest : List Char) :
    '.' ∈ mapFrom before rest ↔ '.' ∈ rest := by
  induction rest generalizing before with
  | nil => rfl
  | cons c rest ih =>
      rw [mapFrom, List.mem_append, ih, List.mem_cons]
      apply or_congr_left
      split
      · rename_i hsigma
        subst hsigma
        split <;> decide
      · split
        · rename_i hdotted
          subst hdotted
          decide
        · rw [List.mem_singleton, eq_comm, simple_eq_dot_iff, eq_comm]

theorem mapFrom_eq_nil_iff {before rest : List Char} : mapFrom before rest = [] ↔ rest = [] := by
  cases rest with
  | nil => simp [mapFrom]
  | cons c rest =>
      rw [mapFrom, List.append_eq_nil_iff]
      split
      · simp
      · split <;> simp

theorem dot_mem_lower_iff {s : String} : '.' ∈ (lower s).toList ↔ '.' ∈ s.toList := by
  rw [lower, String.toList_ofList, dot_mem_mapFrom_iff]

theorem lower_eq_empty_iff {s : String} : lower s = "" ↔ s = "" := by
  rw [← String.toList_inj, ← String.toList_inj, lower, String.toList_ofList, String.toList_empty,
    mapFrom_eq_nil_iff]

end Lowercase

open Lowercase

/-- A name ends in an extension, up to case: in front of a dot and the extension stands a stem that is not
empty. -/
def EndsIn (name extension : String) : Prop :=
  ∃ stem written, stem ≠ "" ∧ name = stem ++ "." ++ written ∧ lower written = lower extension

namespace FileName

/-- A text is split where no more dots follow. -/
theorem splitLastDot?_eq_some_iff {cs stem extension : List Char} :
    splitLastDot? cs = some (stem, extension) ↔
      cs = stem ++ '.' :: extension ∧ '.' ∉ extension := by
  rw [splitLastDot?]
  generalize hback : cs.reverse = back
  have hdrop : back.drop (back.takeWhile (· != '.')).length = back.dropWhile (· != '.') :=
    calc back.drop (back.takeWhile (· != '.')).length
        = (back.takeWhile (· != '.') ++ back.dropWhile (· != '.')).drop
            (back.takeWhile (· != '.')).length := by rw [List.takeWhile_append_dropWhile]
      _ = back.dropWhile (· != '.') := List.drop_left
  rw [hdrop]
  constructor
  · intro h
    split at h
    · rename_i c front hfront
      obtain ⟨rfl, rfl⟩ := Prod.mk.inj (Option.some.inj h)
      have hdot := List.head?_dropWhile_not (· != '.') back
      rw [hfront] at hdot
      obtain rfl : c = '.' := by simpa using hdot
      have hjoined : back = back.takeWhile (· != '.') ++ '.' :: front := by
        rw [← hfront, List.takeWhile_append_dropWhile]
      refine ⟨?_, fun hmem => ?_⟩
      · rw [← List.reverse_inj, hback]
        simpa using hjoined
      · have hall := List.all_eq_true.mp List.all_takeWhile _ (List.mem_reverse.mp hmem)
        exact absurd hall (by decide)
    · cases h
  · rintro ⟨rfl, hfree⟩
    have hafter : ∀ c ∈ extension.reverse, (c != '.') = true := by
      intro c hc
      rw [bne_iff_ne]
      rintro rfl
      exact hfree (List.mem_reverse.mp hc)
    have hsplit : back = extension.reverse ++ '.' :: stem.reverse := by simp [← hback]
    rw [hsplit, List.takeWhile_append_of_pos hafter, List.dropWhile_append_of_pos hafter]
    simp

/-- A name has an extension if its last dot has something on both sides, and then shows what stands behind
it in lower case. -/
theorem extension?_eq_some_iff {f : FileName} {shown : String} :
    f.extension? = some shown ↔ ∃ stem written, stem ≠ "" ∧ written ≠ "" ∧
      f.name = stem ++ "." ++ written ∧ '.' ∉ written.toList ∧ shown = lower written := by
  constructor
  · intro h
    rw [extension?] at h
    split at h
    · rename_i c front e rest hsplit
      obtain ⟨hname, hfree⟩ := splitLastDot?_eq_some_iff.mp hsplit
      refine ⟨.ofList (c :: front), .ofList (e :: rest), ?_, ?_, ?_, ?_, (Option.some.inj h).symm⟩
      · simp
      · simp
      · rw [← String.toList_inj, hname]
        simp
      · rwa [String.toList_ofList]
    · cases h
  · rintro ⟨stem, written, hstem, hwritten, hname, hfree, rfl⟩
    have hsplit : splitLastDot? f.name.toList = some (stem.toList, written.toList) := by
      rw [splitLastDot?_eq_some_iff, hname]
      exact ⟨by simp, hfree⟩
    obtain ⟨c, front, hfront⟩ := List.exists_cons_of_ne_nil (mt String.toList_eq_nil_iff.mp hstem)
    obtain ⟨e, rest, hrest⟩ := List.exists_cons_of_ne_nil (mt String.toList_eq_nil_iff.mp hwritten)
    rw [hfront, hrest] at hsplit
    rw [extension?, hsplit, ← String.ofList_toList (s := written), hrest]

/-- An extension without a dot is found in the names that end in it, and one with a dot in none. -/
theorem extension?_eq_lower_iff {f : FileName} {extension : String} (h : extension ≠ "") :
    f.extension? = some (lower extension) ↔
      '.' ∉ extension.toList ∧ EndsIn f.name extension := by
  rw [extension?_eq_some_iff]
  constructor
  · rintro ⟨stem, written, hstem, -, hname, hfree, hlower⟩
    refine ⟨?_, stem, written, hstem, hname, hlower.symm⟩
    rwa [← dot_mem_lower_iff, hlower, dot_mem_lower_iff]
  · rintro ⟨hfree, stem, written, hstem, hname, hlower⟩
    refine ⟨stem, written, hstem, ?_, hname, ?_, hlower.symm⟩
    · rwa [Ne, ← lower_eq_empty_iff, hlower, lower_eq_empty_iff]
    · rwa [← dot_mem_lower_iff, hlower, dot_mem_lower_iff]

end FileName

end Ntfs
