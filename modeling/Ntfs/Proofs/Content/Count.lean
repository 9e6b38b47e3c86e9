import Ntfs.Content.Stream
import Ntfs.Proofs.Trace.Content

/-!
# The count of what is handed over

Every reader returns a number beside the chunks it hands over.  Whatever the disk answers, and however
often it answers short, the number is that of the bytes handed over (`walkStream_counts`).
-/

namespace Ntfs

namespace Trace

variable {α β : Type}

/-- Work that comes to an end has handed over as many bytes as its result says. -/
def Counts (x : Trace α) (count : α → Nat) : Prop :=
  ∀ a, x.result = .ok a → x.content.length = count a

theorem Counts.andThen {x : Trace α} {f : α → Trace β} {count : α → Nat} {total : β → Nat}
    (hx : x.Counts count)
    (hf : ∀ a b, (f a).result = .ok b → count a + (f a).content.length = total b) :
    (x.andThen f).Counts total := by
  intro b hb
  obtain ⟨a, ha, hb⟩ := andThen_result_eq_ok_iff.mp hb
  rw [content_andThen_of_ok ha, List.length_append, hx a ha]
  exact hf a b hb

theorem Counts.map {x : Trace α} {f : α → β} {count : β → Nat}
    (hx : x.Counts fun a => count (f a)) : (x.map f).Counts count := by
  intro b hb
  obtain ⟨a, ha, rfl⟩ := map_result_eq_ok_iff.mp hb
  exact hx a ha

/-- Going on with a reader whose count is added to what was counted before. -/
theorem Counts.add {x : Trace α} {f : α → Trace Nat} {count : α → Nat} (hx : x.Counts count)
    (hf : ∀ a, (f a).Counts id) : (x.andThen fun a => (f a).map (count a + ·)).Counts id := by
  refine hx.andThen fun a b hb => ?_
  obtain ⟨n, hn, rfl⟩ := map_result_eq_ok_iff.mp hb
  exact congrArg (count a + ·) (hf a n hn)

theorem counts_done {a : α} {count : α → Nat} (h : count a = 0) : (done a).Counts count := by
  intro b hb
  cases hb
  exact h.symm

theorem counts_fail (e : Failure) (count : α → Nat) : (fail e).Counts count := by
  intro a ha
  cases ha

theorem counts_emit (chunk : Buffer) : (emit chunk).Counts fun _ => chunk.size := by
  intro a _
  rw [content_emit, Buffer.length_toList]

theorem counts_read (disk : Disk) (offset length : Nat) :
    (disk.read offset length).Counts fun _ => 0 := fun _ _ => rfl

end Trace

namespace Content

open Trace

variable (disk : Disk) (g : Geometry)

/-- What reading a span counts is what the disk answered and was handed over. -/
theorem readSpan_counts (offset wanted : Nat) : (readSpan disk offset wanted).Counts id := by
  by_cases h : wanted = 0
  · rw [h, readSpan_zero]
    exact counts_done rfl
  · have hpos : 0 < wanted := Nat.pos_of_ne_zero h
    rw [readSpan_of_pos disk offset hpos]
    refine (counts_read disk _ _).andThen fun answer n hn => ?_
    rw [Nat.zero_add]
    split at hn
    · rename_i hempty
      rw [if_pos hempty]
      cases hn
      rfl
    · rename_i hanswer
      rw [if_neg hanswer]
      have hrest := fun _ : Unit =>
        readSpan_counts (offset + answer.size) (wanted - answer.size)
      exact (counts_emit answer).add hrest n hn
termination_by wanted

theorem stopWith_counts (record : UInt64) (offset : Nat) (message : String) :
    (stopWith record offset message 0).Counts RunEnd.produced := by
  intro ended hended
  cases hended
  rfl

/-- A run is not read at all, because it does not start on the disk, or its first bytes are read and a
warning tells if they are not all of it. -/
theorem readRun_cases (record : UInt64) (wanted lcn : Nat) :
    (∃ offset message, readRun disk g record wanted lcn = stopWith record offset message 0) ∨
    ∃ start, g.clusterOffset? lcn = some start ∧ start < disk.size ∧
      readRun disk g record wanted lcn =
        (readSpan disk start (min wanted (disk.size - start))).andThen fun produced =>
          if produced < wanted then
            stopWith record (start + produced)
              s!"run of {wanted} bytes cut to {produced} at the disk end" produced
          else .done ⟨produced, true⟩ := by
  unfold readRun
  cases g.clusterOffset? lcn with
  | none => exact .inl ⟨_, _, rfl⟩
  | some start =>
      dsimp only
      split
      · exact .inl ⟨_, _, rfl⟩
      · rename_i hinside
        exact .inr ⟨start, rfl, Nat.lt_of_not_le hinside, rfl⟩

theorem readRun_counts (record : UInt64) (wanted lcn : Nat) :
    (readRun disk g record wanted lcn).Counts RunEnd.produced := by
  obtain ⟨offset, message, hstop⟩ | ⟨start, -, -, hread⟩ := readRun_cases disk g record wanted lcn
  · rw [hstop]
    exact stopWith_counts record offset message
  · rw [hread]
    refine (readSpan_counts disk start _).andThen fun produced ended hended => ?_
    split at hended
    · rename_i hshort
      rw [if_pos hshort]
      cases hended
      rfl
    · rename_i hwhole
      rw [if_neg hwhole]
      cases hended
      rfl

theorem readOne_counts (record : UInt64) (limit : Nat) (r : Run) :
    (readOne disk g record limit r).Counts RunEnd.produced := by
  unfold readOne
  cases r.lcn with
  | none =>
      refine Counts.map fun _ _ => ?_
      show ((zeros _).map Buffer.toList).flatten.length = _
      rw [flatten_zeros, List.length_replicate]
  | some lcn => exact readRun_counts disk g record _ _

/-- The counts of runs add up to the bytes handed over. -/
theorem readRuns_counts (record : UInt64) (limit : Nat) (runs : List Run) :
    (readRuns disk g record limit runs).Counts id := by
  induction runs generalizing limit with
  | nil => exact counts_done rfl
  | cons r rest ih =>
      rw [readRuns]
      split
      · exact counts_done rfl
      · refine (readOne_counts disk g record limit r).andThen fun ended n hn => ?_
        split at hn
        · rename_i hgo
          rw [if_pos hgo]
          obtain ⟨m, hm, rfl⟩ := map_result_eq_ok_iff.mp hn
          exact congrArg (ended.produced + ·) (ih _ m hm)
        · rename_i hgo
          rw [if_neg hgo]
          cases hn
          rfl

theorem walk_counts (record : UInt64) (limit : Nat) (a : Attribute) :
    (walk disk g record limit a).Counts id := by
  unfold walk
  cases a.residency with
  | resident form =>
      cases residentContent? a.body with
      | none => exact counts_fail _ id
      | some content => exact Counts.map (counts_emit (content.slice 0 limit))
  | nonResident form => exact readRuns_counts disk g record limit _

/-- The counts of the parts of a stream add up to the bytes handed over. -/
theorem walkParts_counts (limit : Nat) (found : List (UInt64 × Attribute)) :
    (walkParts disk g limit found).Counts id := by
  induction found generalizing limit with
  | nil => exact counts_done rfl
  | cons part rest ih =>
      rw [walkParts]
      split
      · exact counts_done rfl
      · exact (walk_counts disk g part.1 limit part.2).add fun produced => ih (limit - produced)

/-- The number a stream is read with is that of the bytes handed over, on any disk. -/
theorem walkStream_counts (t : Table) (record : Nat) (key : StreamKey) :
    (walkStream disk g t record key).Counts id := by
  unfold walkStream
  split
  · cases parts t record key with
    | nil => exact counts_fail _ _
    | cons part rest => exact walkParts_counts disk g _ _
  · exact counts_fail _ _

end Content

end Ntfs
