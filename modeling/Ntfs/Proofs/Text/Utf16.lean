import Ntfs.Text.Utf16

/-!
# How code units are read

`Reads` states on its own which text a sequence of UTF-16 units stands for: that of the characters whose
units it is made of, with U+FFFD for every surrogate that has no partner.  Every sequence stands for one
text and no other, and decoding finds it (`reads_iff`).
-/

namespace Ntfs.Utf16

def unitsOf (c : Char) : List UInt16 :=
  if c.toNat < 0x10000 then [UInt16.ofNat c.toNat]
  else [UInt16.ofNat (0xD800 + (c.toNat - 0x10000) / 0x400),
    UInt16.ofNat (0xDC00 + (c.toNat - 0x10000) % 0x400)]

/-- The unit and the one behind it are the two halves of a pair. -/
def IsPair (u : UInt16) (us : List UInt16) : Prop :=
  isHigh u = true ∧ ∃ low ∈ us.head?, isLow low = true

/-- The text that units stand for. -/
inductive Reads : List UInt16 → List Char → Prop where
  | nil : Reads [] []
  /-- A character is read from its units. -/
  | char (c : Char) {us : List UInt16} {cs : List Char} :
      Reads us cs → Reads (unitsOf c ++ us) (c :: cs)
  /-- A surrogate that is no half of a pair is replaced. -/
  | lone {u : UInt16} {us : List UInt16} {cs : List Char} :
      (isHigh u || isLow u) = true → ¬ IsPair u us → Reads us cs → Reads (u :: us) (replacement :: cs)

theorem isHigh_iff {u : UInt16} : isHigh u = true ↔ 0xD800 ≤ u.toNat ∧ u.toNat ≤ 0xDBFF := by
  simp [isHigh, UInt16.le_iff_toNat_le]

theorem isLow_iff {u : UInt16} : isLow u = true ↔ 0xDC00 ≤ u.toNat ∧ u.toNat ≤ 0xDFFF := by
  simp [isLow, UInt16.le_iff_toNat_le]

theorem toNat_ofNat_of_isValidChar {n : Nat} (h : n.isValidChar) : (Char.ofNat n).toNat = n := by
  rw [Char.ofNat, dif_pos h]
  rfl

/-! ## Units and characters -/

variable {u high low : UInt16} {us : List UInt16}

theorem unitsOf_single (h : (isHigh u || isLow u) = false) : unitsOf (single u) = [u] := by
  have hlt : u.toNat < 0x10000 := u.toNat_lt
  have hvalid : u.toNat.isValidChar := by
    rw [Bool.or_eq_false_iff, ← Bool.not_eq_true, ← Bool.not_eq_true, isHigh_iff, isLow_iff] at h
    rw [Nat.isValidChar]
    omega
  rw [single, h, if_neg Bool.false_ne_true, unitsOf, toNat_ofNat_of_isValidChar hvalid, if_pos hlt,
    UInt16.ofNat_toNat]

theorem unitsOf_pair (hhigh : isHigh high = true) (hlow : isLow low = true) :
    unitsOf (pair high low) = [high, low] := by
  rw [isHigh_iff] at hhigh
  rw [isLow_iff] at hlow
  have hvalid : (0x10000 + (high.toNat - 0xD800) * 0x400 + (low.toNat - 0xDC00)).isValidChar := by
    rw [Nat.isValidChar]
    omega
  have hfirst : 0xD800 + (0x10000 + (high.toNat - 0xD800) * 0x400 + (low.toNat - 0xDC00) - 0x10000) /
      0x400 = high.toNat := by omega
  have hsecond : 0xDC00 + (0x10000 + (high.toNat - 0xD800) * 0x400 + (low.toNat - 0xDC00) - 0x10000) %
      0x400 = low.toNat := by omega
  rw [unitsOf, pair, toNat_ofNat_of_isValidChar hvalid, if_neg (by omega), hfirst, hsecond,
    UInt16.ofNat_toNat, UInt16.ofNat_toNat]

theorem chars_of_not_isPair (h : ¬ IsPair u us) : chars (u :: us) = single u :: chars us := by
  cases us with
  | nil => rfl
  | cons v rest =>
      have hsplit : ¬ (isHigh u && isLow v) = true := by
        rw [Bool.and_eq_true]
        exact fun hpair => h ⟨hpair.1, v, rfl, hpair.2⟩
      rw [chars, if_neg hsplit]

theorem chars_of_pair (hhigh : isHigh high = true) (hlow : isLow low = true) :
    chars (high :: low :: us) = pair high low :: chars us := by
  rw [chars, hhigh, hlow, Bool.and_self, if_pos rfl]

/-- A character is found again in front of any units. -/
theorem chars_unitsOf_append (c : Char) (us : List UInt16) :
    chars (unitsOf c ++ us) = c :: chars us := by
  have hvalid : c.toNat.isValidChar := c.valid
  rw [Nat.isValidChar] at hvalid
  rw [unitsOf]
  split
  · rename_i hlt
    have hnat : (UInt16.ofNat c.toNat).toNat = c.toNat := UInt16.toNat_ofNat_of_lt' hlt
    have hplain : ¬ isHigh (UInt16.ofNat c.toNat) = true ∧ ¬ isLow (UInt16.ofNat c.toNat) = true := by
      rw [isHigh_iff, isLow_iff, hnat]
      omega
    rw [List.singleton_append, chars_of_not_isPair fun hpair => hplain.1 hpair.1, single, hnat,
      Char.ofNat_toNat, if_neg (by simp [hplain])]
  · rename_i hlarge
    have hhigh : (UInt16.ofNat (0xD800 + (c.toNat - 0x10000) / 0x400)).toNat =
        0xD800 + (c.toNat - 0x10000) / 0x400 := UInt16.toNat_ofNat_of_lt' (by
      rw [UInt16.size]
      omega)
    have hlow : (UInt16.ofNat (0xDC00 + (c.toNat - 0x10000) % 0x400)).toNat =
        0xDC00 + (c.toNat - 0x10000) % 0x400 := UInt16.toNat_ofNat_of_lt' (by
      rw [UInt16.size]
      omega)
    have hjoined : 0x10000 + (0xD800 + (c.toNat - 0x10000) / 0x400 - 0xD800) * 0x400 +
        (0xDC00 + (c.toNat - 0x10000) % 0x400 - 0xDC00) = c.toNat := by omega
    rw [List.cons_append, List.singleton_append,
      chars_of_pair (isHigh_iff.mpr (by rw [hhigh]; omega)) (isLow_iff.mpr (by rw [hlow]; omega)), pair,
      hhigh, hlow, hjoined, Char.ofNat_toNat]

/-! ## The text of units -/

/-- A unit that is not the first half of a pair is read on its own. -/
theorem Reads.single {cs : List Char} (h : ¬ IsPair u us) (hrest : Reads us cs) :
    Reads (u :: us) (single u :: cs) := by
  by_cases hsurrogate : (isHigh u || isLow u) = true
  · rw [Utf16.single, if_pos hsurrogate]
    exact hrest.lone hsurrogate h
  · have hchar := hrest.char (Utf16.single u)
    rwa [unitsOf_single (Bool.not_eq_true _ ▸ hsurrogate)] at hchar

/-- The characters of a text are read from its units. -/
theorem reads_chars (us : List UInt16) : Reads us (chars us) := by
  fun_induction chars us with
  | case1 => exact .nil
  | case2 u => exact Reads.single (fun hpair => by simp [IsPair] at hpair) .nil
  | case3 high low rest hpair ih =>
      obtain ⟨hhigh, hlow⟩ := (Bool.and_eq_true _ _).mp hpair
      have hchar := ih.char (pair high low)
      rwa [unitsOf_pair hhigh hlow] at hchar
  | case4 u v rest hsplit ih =>
      refine Reads.single (fun hpair => hsplit ?_) ih
      obtain ⟨hhigh, low, hfirst, hlow⟩ := hpair
      cases hfirst
      rw [hhigh, hlow, Bool.and_self]

/-- Units are read in one way only. -/
theorem Reads.eq_chars {cs : List Char} (h : Reads us cs) : cs = chars us := by
  induction h with
  | nil => rfl
  | char c _ ih => rw [chars_unitsOf_append, ih]
  | lone hsurrogate hpair _ ih => rw [chars_of_not_isPair hpair, Utf16.single, if_pos hsurrogate, ih]

/-- Units stand for one text, and it is the one that is decoded. -/
theorem reads_iff {cs : List Char} : Reads us cs ↔ cs = chars us :=
  ⟨Reads.eq_chars, fun h => h ▸ reads_chars us⟩

end Ntfs.Utf16
