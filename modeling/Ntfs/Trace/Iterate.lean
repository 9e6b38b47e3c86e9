import Ntfs.Trace

/-!
# Repeated work

Work may be repeated from one state to the next until it gives a result.  The trace of the whole is
the traces of the steps, one after the other: `iterate_eq` says what one step adds.  It is gathered
as the steps go by, so that many small steps cost no more than what they leave behind.
-/

namespace Ntfs.Trace

variable {σ β : Type}

/-- What the steps so far have left behind, the last of it first. -/
structure Past where
  requests : List Request
  chunks : List Buffer
  warnings : List Warning

namespace Past

def empty : Past := ⟨[], [], []⟩

/-- The past after one more step. -/
def add (past : Past) (x : Trace β) : Past :=
  ⟨x.requests.reverse ++ past.requests, x.chunks.reverse ++ past.chunks,
    x.warnings.reverse ++ past.warnings⟩

/-- The past, then other work. -/
def before (past : Past) (x : Trace β) : Trace β :=
  ⟨past.requests.reverse ++ x.requests, past.chunks.reverse ++ x.chunks,
    past.warnings.reverse ++ x.warnings, x.result⟩

def close (past : Past) (result : Except Failure β) : Trace β :=
  ⟨past.requests.reverse, past.chunks.reverse, past.warnings.reverse, result⟩

theorem add_before {α : Type} (past : Past) (x : Trace α) (y : Trace β) :
    (past.add x).before y = past.before ((empty.add x).before y) := by
  simp [before, add, empty, List.append_assoc]

end Past

/-- How a step from a state ends: with the result, or in a smaller state. -/
abbrev StepEnd (size : σ → Nat) (s : σ) (β : Type) : Type := β ⊕ { next : σ // size next < size s }

/-- Repeat a step, after what is past already. -/
def iterateAfter (size : σ → Nat) (step : (s : σ) → Trace (StepEnd size s β)) (past : Past)
    (s : σ) : Trace β :=
  let x := step s
  match x.result with
  | .error e => (past.add x).close (.error e)
  | .ok (.inl b) => (past.add x).close (.ok b)
  | .ok (.inr ⟨next, _⟩) => iterateAfter size step (past.add x) next
termination_by size s

/-- Repeat a step from a state until it gives a result. -/
def iterate (size : σ → Nat) (step : (s : σ) → Trace (StepEnd size s β)) (s : σ) : Trace β :=
  iterateAfter size step .empty s

variable {size : σ → Nat} {step : (s : σ) → Trace (StepEnd size s β)}

/-- What is past already can be put in front of the steps that are still to come. -/
theorem iterateAfter_eq (past : Past) (s : σ) :
    iterateAfter size step past s = past.before (iterate size step s) := by
  rw [iterate]
  unfold iterateAfter
  cases h : (step s).result with
  | error e => simp [h, Past.before, Past.close, Past.add, Past.empty]
  | ok ended =>
    cases ended with
    | inl b => simp [h, Past.before, Past.close, Past.add, Past.empty]
    | inr next =>
      obtain ⟨next, smaller⟩ := next
      simp only [h]
      rw [iterateAfter_eq (past.add (step s)) next,
        iterateAfter_eq (Past.empty.add (step s)) next, Past.add_before]
termination_by size s

/-- Repeating a step is the step, and then nothing more or the same from the next state. -/
theorem iterate_eq (s : σ) :
    iterate size step s =
      (step s).andThen (Sum.elim done fun next => iterate size step next.val) := by
  rw [iterate]
  unfold iterateAfter
  cases h : (step s).result with
  | error e => simp [andThen, h, Past.close, Past.add, Past.empty]
  | ok ended =>
    cases ended with
    | inl b => simp [andThen, h, done, Past.close, Past.add, Past.empty]
    | inr next =>
      obtain ⟨next, smaller⟩ := next
      simp only [h]
      rw [iterateAfter_eq]
      simp [andThen, h, Past.before, Past.add, Past.empty]

end Ntfs.Trace
