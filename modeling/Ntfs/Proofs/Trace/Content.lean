import Ntfs.Trace

/-!
# The content a trace hands over

What a reader of a trace sees of its chunks is their concatenation.  Work that may fail on a disk is
described by what it hands over and gives if it comes to an end (`Returns`), and apart from that by
whether it does (`Succeeds`).
-/

namespace Ntfs.Trace

variable {α β : Type}

def content (x : Trace α) : Bytes := (x.chunks.map Buffer.toList).flatten

/-- If the work comes to an end, it has handed over these bytes and gives this result. -/
def Returns (x : Trace α) (bytes : Bytes) (a : α) : Prop :=
  ∀ b, x.result = .ok b → x.content = bytes ∧ b = a

def Succeeds (x : Trace α) : Prop := ∃ a, x.result = .ok a

theorem andThen_result_eq_ok_iff {x : Trace α} {f : α → Trace β} {b : β} :
    (x.andThen f).result = .ok b ↔ ∃ a, x.result = .ok a ∧ (f a).result = .ok b := by
  cases h : x.result with
  | error e => simp [andThen_of_error h]
  | ok a => simp [andThen_of_ok h]

theorem map_result_eq_ok_iff {x : Trace α} {f : α → β} {b : β} :
    (x.map f).result = .ok b ↔ ∃ a, x.result = .ok a ∧ f a = b := by
  cases h : x.result <;> simp [map, Except.map, h]

/-- Work on every item of a list keeps what work on one of them keeps. -/
theorem forall_mem_of_mapM {f : α → Trace β} {P : α → Prop} {Q : β → Prop}
    (hstep : ∀ a b, P a → (f a).result = .ok b → Q b) {items : List α} {results : List β}
    (hitems : ∀ a ∈ items, P a) (h : (items.mapM f).result = .ok results) : ∀ b ∈ results, Q b := by
  induction items generalizing results with
  | nil =>
      cases h
      exact fun _ hb => absurd hb List.not_mem_nil
  | cons a rest ih =>
      obtain ⟨ha, hrest⟩ := List.forall_mem_cons.mp hitems
      rw [List.mapM_cons] at h
      obtain ⟨b, hb, h⟩ := andThen_result_eq_ok_iff.mp h
      obtain ⟨later, hlater, h⟩ := andThen_result_eq_ok_iff.mp h
      cases h
      exact List.forall_mem_cons.mpr ⟨hstep a b ha hb, ih hrest hlater⟩

theorem requests_andThen_of_nil {x : Trace α} {f : α → Trace β} (h : ∀ a, (f a).requests = []) :
    (x.andThen f).requests = x.requests := by
  cases hresult : x.result with
  | error e => rw [andThen_of_error hresult]
  | ok a => rw [andThen_of_ok hresult, h a, List.append_nil]

theorem requests_andThen_of_ok {x : Trace α} {a : α} (h : x.result = .ok a) (f : α → Trace β) :
    (x.andThen f).requests = x.requests ++ (f a).requests := by
  rw [andThen_of_ok h]

theorem content_andThen_of_ok {x : Trace α} {a : α} (h : x.result = .ok a) (f : α → Trace β) :
    (x.andThen f).content = x.content ++ (f a).content := by
  simp [andThen_of_ok h, content]

theorem warnings_andThen_of_ok {x : Trace α} {a : α} (h : x.result = .ok a) (f : α → Trace β) :
    (x.andThen f).warnings = x.warnings ++ (f a).warnings := by
  rw [andThen_of_ok h]

@[simp]
theorem warnings_map (x : Trace α) (f : α → β) : (x.map f).warnings = x.warnings := rfl

@[simp]
theorem content_emit (chunk : Buffer) : (emit chunk).content = chunk.toList := by
  simp [emit, content]

/-- Collecting the content succeeds when the work does. -/
theorem collect_result_eq_ok_iff {x : Trace α} {out : Buffer} :
    x.collect.result = .ok out ↔ x.Succeeds ∧ out.toList = x.content := by
  have hconcat : (Buffer.concat x.chunks).toList = x.content := Buffer.toList_concat x.chunks
  cases h : x.result with
  | error e => simp [collect, Except.map, Succeeds, h]
  | ok a =>
      simp only [collect, h, Except.map, Except.ok.injEq, Succeeds, exists_eq', true_and]
      constructor
      · rintro rfl
        exact hconcat
      · intro hout
        exact Buffer.ext (hconcat.trans hout.symm)

/-! ## Composition -/

theorem mapM_cons (f : α → Trace β) (a : α) (rest : List α) :
    (a :: rest).mapM f = (f a).andThen fun b => (rest.mapM f).map (b :: ·) := by
  rw [List.mapM_cons]
  exact congrArg (f a).andThen (funext fun b => andThen_done_eq_map _ _)

/-- What follows hands over its bytes behind those handed over before. -/
theorem Returns.andThen {x : Trace α} {f : α → Trace β} {bytes more : Bytes} {a : α} {b : β}
    (hx : x.Returns bytes a) (hf : (f a).Returns more b) :
    (x.andThen f).Returns (bytes ++ more) b := by
  intro b' hb'
  obtain ⟨a', ha', hb'⟩ := andThen_result_eq_ok_iff.mp hb'
  obtain ⟨hbytes, rfl⟩ := hx a' ha'
  obtain ⟨hmore, rfl⟩ := hf b' hb'
  exact ⟨by rw [content_andThen_of_ok ha', hbytes, hmore], rfl⟩

theorem Returns.map {x : Trace α} {bytes : Bytes} {a : α} (hx : x.Returns bytes a) (f : α → β) :
    (x.map f).Returns bytes (f a) := by
  intro b hb
  obtain ⟨a', ha', rfl⟩ := map_result_eq_ok_iff.mp hb
  obtain ⟨hbytes, rfl⟩ := hx a' ha'
  exact ⟨hbytes, rfl⟩

theorem returns_done (a : α) : (done a).Returns [] a := by
  intro b hb
  cases hb
  exact ⟨rfl, rfl⟩

theorem returns_emit (chunk : Buffer) : (emit chunk).Returns chunk.toList () :=
  fun _ _ => ⟨content_emit chunk, rfl⟩

theorem returns_emitAll (chunks : List Buffer) :
    (emitAll chunks).Returns ((chunks.map Buffer.toList).flatten) () :=
  fun _ _ => ⟨rfl, rfl⟩

theorem returns_warn (w : Warning) : (warn w).Returns [] () := fun _ _ => ⟨rfl, rfl⟩

theorem Succeeds.andThen {x : Trace α} {f : α → Trace β} (hx : x.Succeeds)
    (hf : ∀ a, x.result = .ok a → (f a).Succeeds) : (x.andThen f).Succeeds := by
  obtain ⟨a, ha⟩ := hx
  obtain ⟨b, hb⟩ := hf a ha
  exact ⟨b, andThen_result_eq_ok_iff.mpr ⟨a, ha, hb⟩⟩

theorem Succeeds.map {x : Trace α} (hx : x.Succeeds) (f : α → β) : (x.map f).Succeeds := by
  obtain ⟨a, ha⟩ := hx
  exact ⟨f a, map_result_eq_ok_iff.mpr ⟨a, ha, rfl⟩⟩

theorem succeeds_done (a : α) : (done a).Succeeds := ⟨a, rfl⟩

end Ntfs.Trace
