import Ntfs.Proofs.Trace.Content

/-!
# Work that goes the same way

Two pieces of work on different disks may ask for different bytes and word their complaints
differently, and still be the same to a caller: they hand over the same content, warn about the same
records in the same order, and give the same result or fail for the same kind of reason.  This
relation (`Alike`) is kept by every way of composing work, so it is enough to establish it where the
disks are read.
-/

namespace Ntfs

/-- The kinds of failures that a caller can tell apart. -/
inductive FailureKind where
  | configuration
  | bootSector
  | missing
  | outsideTable
  | io
  deriving DecidableEq, Repr

def Failure.kind : Failure → FailureKind
  | entryRange .. | recordSize _ => .configuration
  | bootSector _ | noRecord _ => .bootSector
  | missing .. => .missing
  | outsideTable _ => .outsideTable
  | io _ => .io

namespace Trace

variable {α β : Type}

/-- How work ends for a caller who sees of a failure only its kind. -/
def outcome (x : Trace α) : Except FailureKind α := x.result.mapError Failure.kind

/-- The records that the warnings are about, in the order of the warnings. -/
def warned (x : Trace α) : List UInt64 := x.warnings.map Warning.record

/-- Two pieces of work are the same to a caller. -/
structure Alike (x y : Trace α) : Prop where
  chunks_eq : x.chunks = y.chunks
  warned_eq : x.warned = y.warned
  outcome_eq : x.outcome = y.outcome

namespace Alike

variable {x y : Trace α}

theorem refl (x : Trace α) : Alike x x := ⟨rfl, rfl, rfl⟩

theorem of_eq (h : x = y) : Alike x y := h ▸ refl x

theorem symm (h : Alike x y) : Alike y x :=
  ⟨h.chunks_eq.symm, h.warned_eq.symm, h.outcome_eq.symm⟩

theorem trans {z : Trace α} (hxy : Alike x y) (hyz : Alike y z) : Alike x z :=
  ⟨hxy.chunks_eq.trans hyz.chunks_eq, hxy.warned_eq.trans hyz.warned_eq,
    hxy.outcome_eq.trans hyz.outcome_eq⟩

/-- Alike work comes to the same end, or fails twice for the same kind of reason. -/
theorem cases_result (h : Alike x y) :
    (∃ a, x.result = .ok a ∧ y.result = .ok a) ∨
      ∃ e f, x.result = .error e ∧ y.result = .error f ∧ e.kind = f.kind := by
  have houtcome := h.outcome_eq
  rw [outcome, outcome] at houtcome
  cases hx : x.result with
  | ok a =>
      cases hy : y.result with
      | ok b =>
          rw [hx, hy] at houtcome
          cases houtcome
          exact .inl ⟨a, rfl, rfl⟩
      | error f =>
          rw [hx, hy] at houtcome
          cases houtcome
  | error e =>
      cases hy : y.result with
      | ok b =>
          rw [hx, hy] at houtcome
          cases houtcome
      | error f =>
          rw [hx, hy] at houtcome
          exact .inr ⟨e, f, rfl, rfl, Except.error.inj houtcome⟩

/-- Alike work has the same results. -/
theorem result_eq_ok_iff (h : Alike x y) {a : α} : x.result = .ok a ↔ y.result = .ok a := by
  rcases h.cases_result with ⟨b, hx, hy⟩ | ⟨e, f, hx, hy, -⟩
  · rw [hx, hy]
  · rw [hx, hy]
    exact ⟨fun herror => (nomatch herror), fun herror => (nomatch herror)⟩

theorem fail {e f : Failure} (h : e.kind = f.kind) :
    Alike (Trace.fail e : Trace α) (Trace.fail f) :=
  ⟨rfl, rfl, congrArg Except.error h⟩

theorem warn {w w' : Warning} (h : w.record = w'.record) : Alike (Trace.warn w) (Trace.warn w') :=
  ⟨rfl, congrArg (fun record => [record]) h, rfl⟩

/-! ## Composition -/

/-- Work that leaves the same behind may come before work that goes the same way. -/
theorem prepend {requests requests' : List Request} {chunks chunks' : List Buffer}
    {warnings warnings' : List Warning} (hchunks : chunks = chunks')
    (hwarned : warnings.map Warning.record = warnings'.map Warning.record) (h : Alike x y) :
    Alike ⟨requests, chunks ++ x.chunks, warnings ++ x.warnings, x.result⟩
      ⟨requests', chunks' ++ y.chunks, warnings' ++ y.warnings, y.result⟩ := by
  constructor
  · show chunks ++ x.chunks = chunks' ++ y.chunks
    rw [hchunks, h.chunks_eq]
  · show (warnings ++ x.warnings).map _ = (warnings' ++ y.warnings).map _
    rw [List.map_append, List.map_append, hwarned]
    exact congrArg (_ ++ ·) h.warned_eq
  · exact h.outcome_eq

/-- Work that goes the same way goes on the same way, if what follows each result does. -/
theorem andThen {f g : α → Trace β} (h : Alike x y) (hfg : ∀ a, Alike (f a) (g a)) :
    Alike (x.andThen f) (y.andThen g) := by
  rcases h.cases_result with ⟨a, hx, hy⟩ | ⟨e, e', hx, hy, hkind⟩
  · rw [andThen_of_ok hx, andThen_of_ok hy]
    exact (hfg a).prepend h.chunks_eq h.warned_eq
  · rw [andThen_of_error hx, andThen_of_error hy]
    exact ⟨h.chunks_eq, h.warned_eq, congrArg Except.error hkind⟩

/-- Work that goes on after a failure may word what it has to say by it. -/
theorem attempt_andThen {f g : Except Failure α → Trace β} (h : Alike x y)
    (hok : ∀ a, Alike (f (.ok a)) (g (.ok a)))
    (herror : ∀ e e', e.kind = e'.kind → Alike (f (.error e)) (g (.error e'))) :
    Alike (x.attempt.andThen f) (y.attempt.andThen g) := by
  have hlater : Alike (f x.result) (g y.result) := by
    rcases h.cases_result with ⟨a, hx, hy⟩ | ⟨e, e', hx, hy, hkind⟩
    · rw [hx, hy]
      exact hok a
    · rw [hx, hy]
      exact herror e e' hkind
  have hx : x.attempt.result = .ok x.result := rfl
  have hy : y.attempt.result = .ok y.result := rfl
  rw [andThen_of_ok hx, andThen_of_ok hy]
  exact hlater.prepend h.chunks_eq h.warned_eq

theorem map (f : α → β) (h : Alike x y) : Alike (x.map f) (y.map f) := by
  rw [← andThen_done_eq_map, ← andThen_done_eq_map]
  exact h.andThen fun a => refl _

theorem collect (h : Alike x y) : Alike x.collect y.collect := by
  refine ⟨rfl, h.warned_eq, ?_⟩
  rw [outcome, outcome, Trace.collect, Trace.collect]
  rcases h.cases_result with ⟨a, hx, hy⟩ | ⟨e, e', hx, hy, hkind⟩
  · rw [hx, hy, h.chunks_eq]
  · rw [hx, hy]
    exact congrArg Except.error hkind

theorem mapM {f g : α → Trace β} (h : ∀ a, Alike (f a) (g a)) (items : List α) :
    Alike (items.mapM f) (items.mapM g) := by
  induction items with
  | nil => exact refl _
  | cons a rest ih =>
      rw [List.mapM_cons, List.mapM_cons]
      exact (h a).andThen fun b => ih.andThen fun results => refl _

end Alike

end Trace

end Ntfs
