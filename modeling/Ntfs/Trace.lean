import Ntfs.Buffer.Pieces
import Ntfs.Failure
import Ntfs.Warning

/-!
# Traces

Work on a disk is described by the trace it leaves: the requests made to the disk, the content
handed over, the warnings raised, each in order, and the result.  What was done before a failure
stays in the trace.  Traces form a monad: one piece of work goes on where the other ended.
-/

namespace Ntfs

/-- A request to read from a disk. -/
structure Request where
  offset : Nat
  length : Nat
  deriving DecidableEq, Repr

/-- What a piece of work leaves behind. -/
structure Trace (α : Type) where
  requests : List Request
  /-- Content handed over, chunk by chunk. -/
  chunks : List Buffer
  warnings : List Warning
  result : Except Failure α

namespace Trace

variable {α β : Type}

def done (a : α) : Trace α := ⟨[], [], [], .ok a⟩

def fail (f : Failure) : Trace α := ⟨[], [], [], .error f⟩

def warn (w : Warning) : Trace Unit := ⟨[], [], [w], .ok ()⟩

def warnAll (ws : List Warning) : Trace Unit := ⟨[], [], ws, .ok ()⟩

/-- Hand over a chunk of content. -/
def emit (chunk : Buffer) : Trace Unit := ⟨[], [chunk], [], .ok ()⟩

def emitAll (chunks : List Buffer) : Trace Unit := ⟨[], chunks, [], .ok ()⟩

/-- Go on with the result, if there is one. -/
def andThen (x : Trace α) (f : α → Trace β) : Trace β :=
  match x.result with
  | .error e => ⟨x.requests, x.chunks, x.warnings, .error e⟩
  | .ok a =>
    let y := f a
    ⟨x.requests ++ y.requests, x.chunks ++ y.chunks, x.warnings ++ y.warnings, y.result⟩

instance : Monad Trace where
  pure := done
  bind := andThen

def map (f : α → β) (x : Trace α) : Trace β := { x with result := x.result.map f }

/-- Keep the content handed over instead of the result. -/
def collect (x : Trace α) : Trace Buffer :=
  { x with chunks := [], result := x.result.map fun _ => Buffer.concat x.chunks }

/-- Take a failure as a result. -/
def attempt (x : Trace α) : Trace (Except Failure α) := { x with result := .ok x.result }

def ofExcept (r : Except Failure α) : Trace α := ⟨[], [], [], r⟩

@[simp]
theorem pure_eq_done (a : α) : (pure a : Trace α) = done a := rfl

@[simp]
theorem bind_eq_andThen (x : Trace α) (f : α → Trace β) : x >>= f = x.andThen f := rfl

@[simp]
theorem done_andThen (a : α) (f : α → Trace β) : (done a).andThen f = f a := rfl

@[simp]
theorem andThen_done (x : Trace α) : x.andThen done = x := by
  obtain ⟨requests, chunks, warnings, result⟩ := x
  cases result <;> simp [andThen, done]

theorem andThen_done_eq_map (x : Trace α) (f : α → β) : (x.andThen fun a => done (f a)) = x.map f := by
  obtain ⟨requests, chunks, warnings, result⟩ := x
  cases result <;> simp [andThen, done, map, Except.map]

theorem map_map {γ : Type} (x : Trace α) (f : α → β) (g : β → γ) :
    (x.map f).map g = x.map fun a => g (f a) := by
  obtain ⟨requests, chunks, warnings, result⟩ := x
  cases result <;> rfl

theorem andThen_map {γ : Type} (x : Trace α) (f : α → Trace β) (g : β → γ) :
    (x.andThen f).map g = x.andThen fun a => (f a).map g := by
  obtain ⟨requests, chunks, warnings, result⟩ := x
  cases result <;> simp [andThen, map, Except.map]

theorem andThen_of_error {x : Trace α} {e : Failure} (h : x.result = .error e)
    (f : α → Trace β) : x.andThen f = ⟨x.requests, x.chunks, x.warnings, .error e⟩ := by
  simp [andThen, h]

theorem andThen_of_ok {x : Trace α} {a : α} (h : x.result = .ok a) (f : α → Trace β) :
    x.andThen f = ⟨x.requests ++ (f a).requests, x.chunks ++ (f a).chunks,
      x.warnings ++ (f a).warnings, (f a).result⟩ := by
  simp [andThen, h]

theorem andThen_assoc {γ : Type} (x : Trace α) (f : α → Trace β) (g : β → Trace γ) :
    (x.andThen f).andThen g = x.andThen fun a => (f a).andThen g := by
  obtain ⟨requests, chunks, warnings, result⟩ := x
  cases result with
  | error e => rfl
  | ok a =>
    cases h : (f a).result <;> simp [andThen, h, List.append_assoc]

instance : LawfulMonad Trace := LawfulMonad.mk' Trace
  (fun x => andThen_done x) (fun a f => done_andThen a f) andThen_assoc

end Trace

end Ntfs
