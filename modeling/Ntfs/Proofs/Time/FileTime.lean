import Ntfs.Proofs.Machine.Basic
import Ntfs.Proofs.Time.Rfc3339

/-!
# File times are exact

A file time is decoded by a machine that stops at a cast that changes the value and at a difference or
product that leaves its type, and that asks a calendar for the instant.  `ofFiletime_exact` says that it
stops for no file time: it gives the instant that lies as many whole microseconds after 1970 as the ticks
say, and so the order of two file times is that of their instants.
-/

namespace Ntfs

/-! ## The order of instants -/

namespace Instant

/-- Earlier seconds come first, then earlier fractions. -/
instance : LE Instant where
  le t u := t.seconds < u.seconds ∨ t.seconds = u.seconds ∧ t.nanos ≤ u.nanos

def toNanos (t : Instant) : Int := t.seconds * 1000000000 + t.nanos

variable {t u : Instant}

/-- Outside leap seconds instants are ordered by their distance from 1970. -/
theorem le_iff_toNanos_le (ht : t.nanos < 1000000000) (hu : u.nanos < 1000000000) :
    t ≤ u ↔ t.toNanos ≤ u.toNanos := by
  change t.seconds < u.seconds ∨ t.seconds = u.seconds ∧ t.nanos ≤ u.nanos ↔ _
  rw [toNanos, toNanos]
  omega

theorem eq_iff_toNanos_eq (ht : t.nanos < 1000000000) (hu : u.nanos < 1000000000) :
    t = u ↔ t.toNanos = u.toNanos := by
  obtain ⟨tSeconds, tNanos⟩ := t
  obtain ⟨uSeconds, uNanos⟩ := u
  simp only [toNanos, Instant.mk.injEq] at ht hu ⊢
  omega

theorem nanos_ofMicros_lt (micros : Int) : (ofMicros micros).nanos < 1000000000 := by
  have hbelow := Int.emod_lt_of_pos micros (show (0 : Int) < 1000000 by decide)
  simp only [ofMicros]
  omega

/-- An instant is as far from 1970 as the microseconds that it was made of. -/
@[simp]
theorem toNanos_ofMicros (micros : Int) : (ofMicros micros).toNanos = 1000 * micros := by
  simp only [toNanos, ofMicros]
  omega

theorem ofFiletime_of_ne_zero {ticks : UInt64} (h : ticks ≠ 0) :
    ofFiletime ticks = some (ofMicros ((ticks.toNat / 10 : Nat) - microsTo1970)) := if_neg h

theorem ofFiletime_eq_none_iff (ticks : UInt64) : ofFiletime ticks = none ↔ ticks = 0 := by
  by_cases h : ticks = 0
  · exact iff_of_true (if_pos h) h
  · rw [ofFiletime_of_ne_zero h]
    exact iff_of_false (Option.some_ne_none _) h

end Instant

/-! ## The machine -/

namespace Machine

open Work

/-- A word as a signed one of the same value. -/
def toSigned (a : Nat) : Work Int := if a < 0x8000000000000000 then pure a else stop .overflow

/-- A signed word as a word of half the size and of the same value. -/
def toHalf (a : Int) : Work Nat := if 0 ≤ a ∧ a < 0x100000000 then pure a.toNat else stop .overflow

/-- The instant of a file time as a calendar gives it; none if the time was never set.  Unlike in
`asSigned`, no cast may change a value. -/
def fileTime (at? : Int → Nat → Option Instant) (ticks : UInt64) : Work (Option Instant) :=
  if ticks = 0 then pure none
  else do
    let micros ← subSigned (← toSigned (ticks.toNat / 10)) Instant.microsTo1970
    let nanos ← toHalf (← mulSigned (micros % 1000000) 1000)
    return at? (micros / 1000000) nanos

/-- A calendar that has every second of the years of file times. -/
def HasFileTimes (at? : Int → Nat → Option Instant) : Prop :=
  ∀ seconds nanos, 1601 ≤ (Day.ofEpoch (seconds / 86400)).year →
    (Day.ofEpoch (seconds / 86400)).year ≤ 60056 → nanos < 1000000000 →
      at? seconds nanos = some ⟨seconds, nanos⟩

variable {at? : Int → Nat → Option Instant}

theorem HasFileTimes.at?_of_isFileTime (h : HasFileTimes at?) {t : Instant} (ht : t.IsFileTime) :
    at? t.seconds t.nanos = some t := by
  obtain ⟨hnanos, -, hfirst, hlast⟩ := ht.range
  exact h t.seconds t.nanos hfirst hlast hnanos

/-- Nothing that the machine computes on the way leaves its type. -/
theorem fileTime_eq (h : HasFileTimes at?) (ticks : UInt64) :
    fileTime at? ticks = done (.clean (Instant.ofFiletime ticks)) := by
  by_cases hzero : ticks = 0
  · rw [hzero]
    rfl
  have hinstant := Instant.ofFiletime_of_ne_zero hzero
  have hat := h.at?_of_isFileTime ⟨ticks, hinstant⟩
  have hticks : ticks.toNat < 18446744073709551616 := ticks.toNat_lt
  have hsigned : toSigned (ticks.toNat / 10) = done (.clean ((ticks.toNat / 10 : Nat) : Int)) :=
    if_pos (by omega)
  rw [fileTime, if_neg hzero, hinstant, hsigned]
  generalize hmicros : ((ticks.toNat / 10 : Nat) : Int) - Instant.microsTo1970 = micros at hat ⊢
  have hdifference : IsSigned micros := by
    simp only [Instant.microsTo1970] at hmicros
    constructor <;> omega
  have hnonneg := Int.emod_nonneg micros (show (1000000 : Int) ≠ 0 by decide)
  have hbelow := Int.emod_lt_of_pos micros (show (0 : Int) < 1000000 by decide)
  have hproduct : IsSigned (micros % 1000000 * 1000) := by
    constructor <;> omega
  have hhalf : toHalf (micros % 1000000 * 1000) = done (.clean (Instant.ofMicros micros).nanos) := by
    rw [toHalf, if_pos (by omega), Int.toNat_mul hnonneg (by decide)]
    rfl
  simp only [subSigned, hmicros, if_pos hdifference, mulSigned, if_pos hproduct, pure_eq_done,
    bind_eq_andThen, done_clean_andThen, hhalf]
  exact congrArg (done <| .clean ·) hat

end Machine

namespace Instant

/-- Every file time is decoded without a cast that changes the value or a result that leaves its type.
Zero stands for no instant, and any other file time for the instant as many whole microseconds after 1970
as its ticks say, before 1970 if they are fewer than those up to it.  A file time that is no later has an
instant that is no later, the same one if and only if both count the same whole microseconds. -/
theorem ofFiletime_exact (at? : Int → Nat → Option Instant) (hat : Machine.HasFileTimes at?) :
    (∀ f, Machine.fileTime at? f = .done (.clean (ofFiletime f))) ∧
    (∀ f, ofFiletime f = none ↔ f = 0) ∧
    (∀ f, f ≠ 0 → ∃ t, ofFiletime f = some t ∧ t.nanos < 1000000000 ∧
      t.toNanos = 1000 * ((f.toNat / 10 : Nat) - 11644473600000000)) ∧
    (∀ f g, f ≠ 0 → f ≤ g → ∃ t u, ofFiletime f = some t ∧ ofFiletime g = some u ∧ t ≤ u ∧
      (t = u ↔ f.toNat / 10 = g.toNat / 10)) := by
  refine ⟨Machine.fileTime_eq hat, ofFiletime_eq_none_iff, fun f hf => ?_, fun f g hf hle => ?_⟩
  · exact ⟨_, ofFiletime_of_ne_zero hf, nanos_ofMicros_lt _, toNanos_ofMicros _⟩
  · have hticks : f.toNat ≤ g.toNat := UInt64.le_iff_toNat_le.mp hle
    have hg : g ≠ 0 := by
      rintro rfl
      exact hf (UInt64.toNat_inj.mp (Nat.le_zero.mp hticks))
    refine ⟨_, _, ofFiletime_of_ne_zero hf, ofFiletime_of_ne_zero hg, ?_, ?_⟩
    · rw [le_iff_toNanos_le (nanos_ofMicros_lt _) (nanos_ofMicros_lt _), toNanos_ofMicros,
        toNanos_ofMicros]
      omega
    · rw [eq_iff_toNanos_eq (nanos_ofMicros_lt _) (nanos_ofMicros_lt _), toNanos_ofMicros,
        toNanos_ofMicros]
      omega

/-- A calendar of the years that a time stamp may have, with leap seconds at the end of any minute. -/
def inCalendar? (seconds : Int) (nanos : Nat) : Option Instant :=
  if Rfc3339.yearInRange (Day.ofEpoch (seconds / 86400)).year = true ∧
      (nanos < 1000000000 ∨ nanos < 2000000000 ∧ seconds % 60 = 59) then some ⟨seconds, nanos⟩
  else none

theorem hasFileTimes_inCalendar? : Machine.HasFileTimes inCalendar? := by
  intro seconds nanos hfirst hlast hnanos
  refine if_pos ⟨?_, .inl hnanos⟩
  rw [Rfc3339.yearInRange, Bool.and_eq_true, decide_eq_true_eq, decide_eq_true_eq]
  omega

/-- The last file time before 1970, and the first one there is. -/
theorem ofFiletime_exact_before_1970 :
    Machine.fileTime inCalendar? 116444735999999999 = .done (.clean (some ⟨-1, 999999000⟩)) ∧
    (∃ t, ofFiletime 1 = some t ∧ t.nanos < 1000000000 ∧ t.toNanos = -11644473600000000000) ∧
    ∃ t u, ofFiletime 116444735999999999 = some t ∧ ofFiletime 0xFFFFFFFFFFFFFFFF = some u ∧ t ≤ u ∧
      t ≠ u := by
  obtain ⟨hmachine, -, hexact, hordered⟩ := ofFiletime_exact inCalendar? hasFileTimes_inCalendar?
  obtain ⟨t, u, ht, hu, hle, heq⟩ :=
    hordered 116444735999999999 0xFFFFFFFFFFFFFFFF (by decide) (by decide)
  exact ⟨hmachine _, hexact 1 (by decide), t, u, ht, hu, hle, mt heq.mp (by decide)⟩

end Instant

end Ntfs
