import Ntfs.Proofs.Time.Calendar
import Ntfs.Time.Rfc3339

/-!
# A time stamp is read back

Reading a time stamp gives the instant it was written for, whatever the number of digits of its
fraction and of its year (`parse?_zulu`).  The written form starts every field behind the end of the
one before it, so each reader takes its field and leaves the rest.
-/

namespace Ntfs

namespace Rfc3339

/-! ## Digits -/

theorem toList_padded (width n : Nat) :
    (padded width n).toList =
      List.replicate (width - (Nat.toDigits 10 n).length) '0' ++ Nat.toDigits 10 n := by
  have hzeros : ∀ count, ("".pushn '0' count).toList = List.replicate count '0' := by
    intro count
    induction count with
    | zero => rfl
    | succ count ih =>
        rw [List.replicate_succ', ← ih, ← String.toList_push]
        rfl
  have hdigits : (toString n).toList = Nat.toDigits 10 n := Nat.toList_repr
  rw [padded, String.toList_append, hzeros, hdigits, ← String.length_toList, hdigits]

theorem isDigit_of_mem_padded {width n : Nat} {c : Char} (h : c ∈ (padded width n).toList) :
    c.isDigit = true := by
  rw [toList_padded, List.mem_append] at h
  rcases h with hzero | hdigit
  · rw [List.eq_of_mem_replicate hzero]
    rfl
  · exact Nat.isDigit_of_mem_toDigits (by decide) (by decide) hdigit

theorem ofDigitChars_padded (width n : Nat) :
    Nat.ofDigitChars 10 (padded width n).toList 0 = n := by
  rw [toList_padded, Nat.ofDigitChars_append, Nat.ofDigitChars_replicate_zero, Nat.mul_zero,
    Nat.ofDigitChars_ten_toDigits]

theorem padded_ne_nil (width n : Nat) : (padded width n).toList ≠ [] := by
  rw [toList_padded]
  exact List.append_ne_nil_of_right_ne_nil _ Nat.toDigits_ne_nil

/-- A number that fits its field fills it. -/
theorem length_padded {width n : Nat} (h : (Nat.toDigits 10 n).length ≤ width) :
    (padded width n).toList.length = width := by
  rw [toList_padded, List.length_append, List.length_replicate]
  omega

theorem length_padded_two {n : Nat} (h : n < 100) : (padded 2 n).toList.length = 2 :=
  length_padded ((Nat.length_toDigits_le_iff (by decide) (by decide)).mpr h)

/-- The digits at the front end where something else follows them. -/
theorem takeWhile_take_append {width : Nat} {taken : List Char} {c : Char}
    (htaken : ∀ d ∈ taken, d.isDigit = true) (hlength : taken.length ≤ width)
    (hc : c.isDigit = false) (rest : List Char) :
    ((taken ++ c :: rest).take width).takeWhile Char.isDigit = taken := by
  have hstop : ((c :: rest).take (width - taken.length)).takeWhile Char.isDigit = [] := by
    cases width - taken.length with
    | zero => rfl
    | succ count =>
        rw [List.take_succ_cons, List.takeWhile_cons, hc]
        rfl
  rw [List.take_append, List.take_of_length_le hlength, List.takeWhile_append_of_pos htaken, hstop,
    List.append_nil]

/-- A numeral filled with zeros is read back up to the character behind it. -/
theorem digits_padded {most width n : Nat} {c : Char}
    (hlength : (padded width n).toList.length ≤ most) (hc : c.isDigit = false)
    (rest : List Char) :
    digits most ((padded width n).toList ++ c :: rest) = some (n, c :: rest) := by
  have htaken := takeWhile_take_append (fun _ => isDigit_of_mem_padded) hlength hc rest
  rw [digits, htaken]
  simp only [List.isEmpty_iff, if_neg (padded_ne_nil width n), List.drop_left,
    ofDigitChars_padded]

/-! ## Fields -/

theorem isBlank_of_isDigit {c : Char} (h : c.isDigit = true) : Blank.isBlank c = false := by
  obtain ⟨hlow, hhigh⟩ := Bool.and_eq_true_iff.mp h
  have hlow : 48 ≤ c.toNat := UInt32.le_iff_toNat_le.mp (of_decide_eq_true hlow)
  have hhigh : c.toNat ≤ 57 := UInt32.le_iff_toNat_le.mp (of_decide_eq_true hhigh)
  simp only [Blank.isBlank, Bool.or_eq_false_iff, Bool.and_eq_false_imp, decide_eq_true_eq,
    decide_eq_false_iff_not, beq_eq_false_iff_ne]
  omega

theorem trimLeft_cons {c : Char} (h : Blank.isBlank c = false) (rest : List Char) :
    Blank.trimLeft (c :: rest) = c :: rest := by
  rw [Blank.trimLeft, List.dropWhile_cons, h]
  rfl

theorem trimLeft_padded (width n : Nat) (rest : List Char) :
    Blank.trimLeft ((padded width n).toList ++ rest) = (padded width n).toList ++ rest := by
  obtain ⟨c, cs, hcons⟩ := List.exists_cons_of_ne_nil (padded_ne_nil width n)
  have hc : c.isDigit = true := isDigit_of_mem_padded (hcons ▸ List.mem_cons_self)
  rw [hcons]
  exact trimLeft_cons (isBlank_of_isDigit hc) (cs ++ rest)

theorem field_padded {n : Nat} (h : n < 100) {c : Char} (hc : c.isDigit = false)
    (rest : List Char) :
    field 2 ((padded 2 n).toList ++ c :: rest) = some (n, c :: rest) := by
  rw [field, trimLeft_padded]
  exact digits_padded (Nat.le_of_eq (length_padded_two h)) hc rest

theorem separator_self {c : Char} (h : Blank.isBlank c = false) (rest : List Char) :
    separator c (c :: rest) = some ((), rest) := by
  rw [separator, trimLeft_cons h]
  exact if_pos rfl

/-- Four digits of a year stand without a sign. -/
theorem yearField_unsigned {y : Int} (h0 : 0 ≤ y) (h1 : y ≤ 9999) {c : Char}
    (hc : c.isDigit = false) (rest : List Char) :
    yearField ((year y).toList ++ c :: rest) = some (y, c :: rest) := by
  have hlength : (padded 4 y.toNat).toList.length = 4 := by
    apply length_padded
    apply (Nat.length_toDigits_le_iff (by decide) (by decide)).mpr
    omega
  have hdigits := digits_padded (Nat.le_of_eq hlength) hc rest
  have hfirst : ∀ d cs, (padded 4 y.toNat).toList ++ c :: rest = d :: cs → d.isDigit = true := by
    intro d cs h
    obtain ⟨e, es, hcons⟩ := List.exists_cons_of_ne_nil (padded_ne_nil 4 y.toNat)
    rw [hcons, List.cons_append] at h
    cases h
    exact isDigit_of_mem_padded (hcons ▸ List.mem_cons_self)
  rw [year, if_pos ⟨h0, h1⟩, yearField, trimLeft_padded]
  split
  · rename_i h
    exact absurd (hfirst _ _ h) (by decide)
  · rename_i h
    exact absurd (hfirst _ _ h) (by decide)
  · simp only [hdigits, Option.map_some, Int.toNat_of_nonneg h0]

theorem yearField_minus (rest : List Char) :
    yearField ('-' :: rest) =
      (digits rest.length rest).map fun (n, rest) => (-(n : Int), rest) := by
  rw [yearField, trimLeft_cons (by decide)]
  rfl

theorem yearField_plus (rest : List Char) :
    yearField ('+' :: rest) = (digits rest.length rest).map fun (n, rest) => ((n : Int), rest) := by
  rw [yearField, trimLeft_cons (by decide)]
  rfl

/-- A year outside four digits has its sign. -/
theorem yearField_signed {y : Int} (h : ¬(0 ≤ y ∧ y ≤ 9999)) {c : Char}
    (hc : c.isDigit = false) (rest : List Char) :
    yearField ((year y).toList ++ c :: rest) = some (y, c :: rest) := by
  have hlength : (padded 4 y.natAbs).toList.length ≤
      ((padded 4 y.natAbs).toList ++ c :: rest).length := by
    rw [List.length_append]
    exact Nat.le_add_right _ _
  have hdigits := digits_padded hlength hc rest
  have hminus : "-".toList = ['-'] := rfl
  have hplus : "+".toList = ['+'] := rfl
  rw [year, if_neg h, String.toList_append]
  by_cases hnegative : y < 0
  · have hy : -(y.natAbs : Int) = y := by omega
    rw [if_pos hnegative, hminus, List.singleton_append, List.cons_append, yearField_minus]
    simp only [hdigits, Option.map_some, hy]
  · have hy : (y.natAbs : Int) = y := by omega
    rw [if_neg hnegative, hplus, List.singleton_append, List.cons_append, yearField_plus]
    simp only [hdigits, Option.map_some, hy]

theorem yearField_year (y : Int) {c : Char} (hc : c.isDigit = false) (rest : List Char) :
    yearField ((year y).toList ++ c :: rest) = some (y, c :: rest) := by
  by_cases h : 0 ≤ y ∧ y ≤ 9999
  · exact yearField_unsigned h.1 h.2 hc rest
  · exact yearField_signed h hc rest

/-! ## Fractions -/

/-- Digits behind a point are filled up to nine. -/
theorem fractionField_padded {width n : Nat} (hwidth : width ≤ 9)
    (hn : (Nat.toDigits 10 n).length ≤ width) {c : Char} (hc : c.isDigit = false)
    (rest : List Char) :
    fractionField ('.' :: ((padded width n).toList ++ c :: rest)) =
      some (Nat.ofDigitChars 10 (List.replicate (9 - width) '0') n, c :: rest) := by
  have hlength := length_padded hn
  have htaken := takeWhile_take_append (fun _ => isDigit_of_mem_padded) (hlength ▸ hwidth) hc
    rest
  have hrest : ((padded width n).toList ++ c :: rest).dropWhile Char.isDigit = c :: rest := by
    rw [List.dropWhile_append_of_pos fun _ => isDigit_of_mem_padded, List.dropWhile_cons, hc]
    rfl
  rw [fractionField]
  simp only [htaken, hlength, hrest, List.isEmpty_iff, if_neg (padded_ne_nil width n),
    Nat.ofDigitChars_append, ofDigitChars_padded]

/-- A fraction is left out, or it stands behind a point with no more digits than its width, and
zeros fill it up to nanoseconds. -/
theorem fraction_cases {nanos : Nat} (h : nanos < 1000000000) :
    (nanos = 0 ∧ fraction nanos = "") ∨
      ∃ width n, fraction nanos = "." ++ padded width n ∧ width ≤ 9 ∧
        (Nat.toDigits 10 n).length ≤ width ∧
        Nat.ofDigitChars 10 (List.replicate (9 - width) '0') n = nanos := by
  rw [fraction]
  split
  · rename_i hzero
    exact .inl ⟨hzero, rfl⟩
  right
  split
  · refine ⟨3, nanos / 1000000, rfl, by decide, ?_, ?_⟩
    · exact (Nat.length_toDigits_le_iff (by decide) (by decide)).mpr (by omega)
    · rw [Nat.ofDigitChars_replicate_zero]
      omega
  split
  · refine ⟨6, nanos / 1000, rfl, by decide, ?_, ?_⟩
    · exact (Nat.length_toDigits_le_iff (by decide) (by decide)).mpr (by omega)
    · rw [Nat.ofDigitChars_replicate_zero]
      omega
  · refine ⟨9, nanos, rfl, by decide, ?_, ?_⟩
    · exact (Nat.length_toDigits_le_iff (by decide) (by decide)).mpr (by omega)
    · rw [Nat.ofDigitChars_replicate_zero]
      omega

theorem toList_point_append (s : String) (rest : List Char) :
    ("." ++ s).toList ++ rest = '.' :: (s.toList ++ rest) := by
  rw [String.toList_append]
  rfl

/-- A fraction in front of the zone is read back. -/
theorem fractionField_fraction {nanos : Nat} (h : nanos < 1000000000) (rest : List Char) :
    fractionField ((fraction nanos).toList ++ 'Z' :: rest) = some (nanos, 'Z' :: rest) := by
  rcases fraction_cases h with ⟨hzero, hnone⟩ | ⟨width, n, hfraction, hwidth, hn, hnanos⟩
  · rw [hnone, hzero]
    rfl
  · rw [hfraction, toList_point_append, fractionField_padded hwidth hn (by decide), hnanos]

/-- What follows the seconds is not a digit. -/
theorem exists_fraction_eq_cons {nanos : Nat} (h : nanos < 1000000000) (rest : List Char) :
    ∃ c cs, (fraction nanos).toList ++ 'Z' :: rest = c :: cs ∧ c.isDigit = false := by
  rcases fraction_cases h with ⟨-, hnone⟩ | ⟨width, n, hfraction, -⟩
  · exact ⟨'Z', rest, by rw [hnone]; rfl, by decide⟩
  · exact ⟨'.', _, by rw [hfraction, toList_point_append], by decide⟩

end Rfc3339

/-! ## Time stamps -/

/-- An instant that has a time stamp: in no leap second, and in a year that may be written. -/
structure Instant.HasStamp (t : Instant) : Prop where
  nanos_lt : t.nanos < 1000000000
  year_inRange : Rfc3339.yearInRange (Day.ofEpoch (t.seconds / 86400)).year = true

namespace Rfc3339

/-- The fields of a time stamp one after the other. -/
theorem toList_zulu {t : Instant} (h : t.nanos < 1000000000) :
    (zulu t).toList =
      (year (Day.ofEpoch (t.seconds / 86400)).year).toList ++ '-' ::
        ((padded 2 (Day.ofEpoch (t.seconds / 86400)).month).toList ++ '-' ::
          ((padded 2 (Day.ofEpoch (t.seconds / 86400)).day).toList ++ 'T' ::
            ((padded 2 ((t.seconds % 86400).toNat / 3600)).toList ++ ':' ::
              ((padded 2 ((t.seconds % 86400).toNat / 60 % 60)).toList ++ ':' ::
                ((padded 2 ((t.seconds % 86400).toNat % 60)).toList ++
                  ((fraction t.nanos).toList ++ ['Z'])))))) := by
  have hdash : "-".toList = ['-'] := rfl
  have hcolon : ":".toList = [':'] := rfl
  have htime : "T".toList = ['T'] := rfl
  have hzone : "Z".toList = ['Z'] := rfl
  simp only [zulu, dateTime, String.toList_append, List.append_assoc, hdash, hcolon, htime, hzone,
    List.cons_append, List.nil_append, Nat.div_eq_of_lt h, Nat.mod_eq_of_lt h, Nat.add_zero]

/-- Reading the time stamp of an instant gives the instant. -/
theorem parse?_zulu {t : Instant} (h : t.HasStamp) : parse? (zulu t) = some t := by
  have hvalid := Day.isValid_ofEpoch (t.seconds / 86400)
  have hepoch := Day.toEpoch_ofEpoch (t.seconds / 86400)
  have hyear := h.year_inRange
  rw [parse?, toList_zulu h.nanos_lt]
  generalize hd : Day.ofEpoch (t.seconds / 86400) = d at hvalid hepoch hyear ⊢
  generalize hs : (t.seconds % 86400).toNat = second
  obtain ⟨hmonth, hday⟩ := Day.lt_of_isValid hvalid
  have hsecond : second < 86400 := by omega
  obtain ⟨c, cs, hcons, hc⟩ := exists_fraction_eq_cons h.nanos_lt []
  have hfraction := fractionField_fraction h.nanos_lt []
  have hzone : zone ['Z'] = some (0, []) := rfl
  rw [hcons] at hfraction ⊢
  have hdash : '-'.isDigit = false := by decide
  have hcolon : ':'.isDigit = false := by decide
  refine Option.bind_eq_some_iff.mpr ⟨_, yearField_year d.year hdash _, ?_⟩
  refine Option.bind_eq_some_iff.mpr ⟨_, separator_self (by decide) _, ?_⟩
  refine Option.bind_eq_some_iff.mpr ⟨_, field_padded hmonth hdash _, ?_⟩
  refine Option.bind_eq_some_iff.mpr ⟨_, separator_self (by decide) _, ?_⟩
  refine Option.bind_eq_some_iff.mpr ⟨_, field_padded hday (by decide) _, ?_⟩
  refine Option.bind_eq_some_iff.mpr ⟨_, rfl, ?_⟩
  refine Option.bind_eq_some_iff.mpr ⟨_, field_padded (by omega) hcolon _, ?_⟩
  refine Option.bind_eq_some_iff.mpr ⟨_, separator_self (by decide) _, ?_⟩
  refine Option.bind_eq_some_iff.mpr ⟨_, field_padded (by omega) hcolon _, ?_⟩
  refine Option.bind_eq_some_iff.mpr ⟨_, separator_self (by decide) _, ?_⟩
  refine Option.bind_eq_some_iff.mpr ⟨_, field_padded (by omega) hc _, ?_⟩
  refine Option.bind_eq_some_iff.mpr ⟨_, hfraction, ?_⟩
  refine Option.bind_eq_some_iff.mpr ⟨_, hzone, ?_⟩
  dsimp only
  have hseconds : (⟨d.year, d.month, d.day⟩ : Day).toEpoch * 86400 + (second / 3600 : Nat) * 3600 +
      (second / 60 % 60 : Nat) * 60 + (second % 60 - second % 60 / 60 : Nat) - 0 = t.seconds := by
    change d.toEpoch * 86400 + _ + _ + _ - 0 = _
    omega
  have hnanos : t.nanos + second % 60 / 60 * 1000000000 = t.nanos := by omega
  rw [hseconds, hnanos, hd, if_pos hyear, if_pos]
  simp only [Bool.and_eq_true, decide_eq_true_eq]
  exact ⟨⟨⟨⟨⟨⟨⟨rfl, hyear⟩, hvalid⟩, by omega⟩, by omega⟩, by omega⟩, by decide⟩, by decide⟩

end Rfc3339

namespace Instant

/-- An instant that a file time stands for. -/
def IsFileTime (t : Instant) : Prop := ∃ ticks, ofFiletime ticks = some t

variable {t : Instant}

/-- File times are whole microseconds from 1601 to 60056. -/
theorem IsFileTime.range (h : t.IsFileTime) :
    t.nanos < 1000000000 ∧ t.nanos % 1000 = 0 ∧
      1601 ≤ (Day.ofEpoch (t.seconds / 86400)).year ∧
      (Day.ofEpoch (t.seconds / 86400)).year ≤ 60056 := by
  obtain ⟨ticks, hticks⟩ := h
  rw [ofFiletime] at hticks
  split at hticks
  · contradiction
  cases hticks
  have hword : ticks.toNat < 0x10000000000000000 := ticks.toNat_lt
  obtain ⟨hfirst, hlast⟩ := Day.year_ofEpoch_bounds
    ((ofMicros ((ticks.toNat / 10 : Nat) - microsTo1970)).seconds / 86400)
  generalize (Day.ofEpoch _).year = year at hfirst hlast ⊢
  simp only [ofMicros, microsTo1970, Day.toMarch, Day.epochOffset] at hfirst hlast ⊢
  omega

theorem IsFileTime.hasStamp (h : t.IsFileTime) : t.HasStamp := by
  obtain ⟨hnanos, -, hfirst, hlast⟩ := h.range
  refine ⟨hnanos, ?_⟩
  rw [Rfc3339.yearInRange, Bool.and_eq_true, decide_eq_true_eq, decide_eq_true_eq]
  omega

end Instant

end Ntfs
