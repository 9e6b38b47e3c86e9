import Mathlib.Data.List.Forall2
import Ntfs.Proofs.Content.Limit

/-!
# What is asked of the disk

Every run that lies on the disk is asked for piece by piece: a request starts where the answers so far end,
and it stays inside the clusters of the run and inside the disk (`readRuns_requests`).  Since an answer may
be shorter than its request, it is the bytes answered that lie side by side, and not those requested.  On a
disk that answers with no more than it is asked for, all pieces together stay within the limit, also when
the disk refuses one of them (`length_content_readRuns_le`).
-/

namespace Ntfs

/-- How many bytes a request is answered with, none if the disk refuses. -/
def Disk.answered (disk : Disk) (q : Request) : Nat :=
  match disk.readAt q.offset q.length with
  | .ok answer => answer.size
  | .error _ => 0

theorem Disk.answered_of_ok {disk : Disk} {q : Request} {answer : Buffer}
    (h : disk.readAt q.offset q.length = .ok answer) : disk.answered q = answer.size := by
  rw [answered, h]

/-- Below the largest address, a cluster starts where it does if its size is not capped. -/
theorem Geometry.eq_of_clusterOffset? {g : Geometry} {lcn start : Nat}
    (h : g.clusterOffset? lcn = some start) (hstart : start < maxWord) :
    start = g.start + lcn * (g.sectorsPerCluster * g.bytesPerSector) := by
  rw [clusterOffset?] at h
  split at h
  · have hoffset : lcn * g.clusterSize + g.start = start := Option.some.inj h
    rw [clusterSize] at hoffset
    rcases Nat.le_total (g.sectorsPerCluster * g.bytesPerSector) maxWord with hfits | hcapped
    · rw [Nat.min_eq_left hfits] at hoffset
      omega
    · -- only the first cluster starts below the largest address
      rw [Nat.min_eq_right hcapped] at hoffset
      obtain rfl : lcn = 0 := by
        by_contra hne
        have := Nat.le_mul_of_pos_left maxWord (Nat.pos_of_ne_zero hne)
        omega
      omega
  · cases h

namespace Trace

variable {α β : Type} {x : Trace α} {f : α → Trace β}

theorem length_content_andThen_le {limit : Nat} (hx : x.content.length ≤ limit)
    (hf : ∀ a, x.result = .ok a → x.content.length + (f a).content.length ≤ limit) :
    (x.andThen f).content.length ≤ limit := by
  cases hresult : x.result with
  | error e =>
      rw [andThen_of_error hresult]
      exact hx
  | ok a =>
      rw [content_andThen_of_ok hresult, List.length_append]
      exact hf a hresult

end Trace

namespace Content

open Trace

variable {disk : Disk} {g : Geometry}

/-! ## Requests for a span -/

/-- Requests up to `stop`, the first of which starts at a place and each other one where the answers before
it end. -/
inductive Asks (disk : Disk) (stop : Nat) : Nat → List Request → Prop where
  | nil {start : Nat} : Asks disk stop start []
  | cons {start length : Nat} {rest : List Request} (hpos : 1 ≤ length) (hpiece : length ≤ maxPiece)
      (hinside : start + length ≤ stop)
      (hrest : Asks disk stop (start + disk.answered ⟨start, length⟩) rest) :
      Asks disk stop start (⟨start, length⟩ :: rest)

namespace Asks

variable {stop start : Nat} {asked : List Request}

theorem inside (h : Asks disk stop start asked) : ∀ q ∈ asked,
    1 ≤ q.length ∧ q.length ≤ maxPiece ∧ start ≤ q.offset ∧ q.offset + q.length ≤ stop := by
  induction h with
  | nil => exact fun _ hq => absurd hq List.not_mem_nil
  | cons hpos hpiece hinside _ ih =>
      refine List.forall_mem_cons.mpr ⟨⟨hpos, hpiece, Nat.le_refl _, hinside⟩, fun q hq => ?_⟩
      obtain ⟨hpos, hpiece, hstart, hinside⟩ := ih q hq
      exact ⟨hpos, hpiece, Nat.le_trans (Nat.le_add_right ..) hstart, hinside⟩

theorem isChain (h : Asks disk stop start asked) :
    asked.IsChain fun q q' => q'.offset = q.offset + disk.answered q := by
  induction h with
  | nil => exact .nil
  | cons _ _ _ hrest ih =>
      cases hrest with
      | nil => exact .singleton _
      | cons _ _ _ _ => exact .cons_cons rfl ih

theorem pairwise (h : Asks disk stop start asked) :
    asked.Pairwise fun q q' => q.offset + disk.answered q ≤ q'.offset := by
  induction h with
  | nil => exact .nil
  | cons _ _ _ hrest ih => exact .cons (fun q hq => (hrest.inside q hq).2.2.1) ih

end Asks

/-- For a span, the disk is asked for pieces of it, each of which starts where the answer before it ends.
-/
theorem readSpan_asks (hexceeds : disk.NeverExceeds) (offset wanted : Nat) :
    Asks disk (offset + wanted) offset (readSpan disk offset wanted).requests := by
  by_cases h : wanted = 0
  · rw [h, readSpan_zero]
    exact .nil
  have hpos : 0 < wanted := Nat.pos_of_ne_zero h
  have hpiece : 0 < maxPiece := by decide
  rw [readSpan_of_pos disk offset hpos]
  cases hread : disk.readAt offset (min wanted maxPiece) with
  | error message =>
      have hrefused : (disk.read offset (min wanted maxPiece)).result = .error (.io message) := by
        rw [Disk.read, hread]
        rfl
      rw [andThen_of_error hrefused]
      exact .cons (by omega) (Nat.min_le_right ..) (by omega) .nil
  | ok answer =>
      have hanswered : disk.answered ⟨offset, min wanted maxPiece⟩ = answer.size :=
        Disk.answered_of_ok hread
      have hle : answer.size ≤ wanted := Nat.le_trans (hexceeds hread) (Nat.min_le_left ..)
      rw [requests_andThen_of_ok (read_result_eq_ok_iff.mpr hread)]
      refine .cons (by omega) (Nat.min_le_right ..) (by omega) ?_
      rw [hanswered]
      split
      · exact .nil
      · have hrest := readSpan_asks hexceeds (offset + answer.size) (wanted - answer.size)
        rw [show offset + answer.size + (wanted - answer.size) = offset + wanted by omega] at hrest
        exact hrest
termination_by wanted

/-! ## Requests for a run -/

/-- What is asked of the disk for a run. -/
structure RunRequests (disk : Disk) (g : Geometry) (r : Run) (asked : List Request) : Prop where
  bounded : ∀ q ∈ asked, 1 ≤ q.length ∧ q.length ≤ 0x100000
  onDisk : ∀ q ∈ asked, q.offset + q.length ≤ disk.size
  inClusters : ∀ q ∈ asked, ∃ lcn, r.lcn = some lcn ∧
    g.start + lcn.toNat * (g.sectorsPerCluster * g.bytesPerSector) ≤ q.offset ∧
    q.offset + q.length ≤
      g.start + (lcn.toNat + r.length.toNat) * (g.sectorsPerCluster * g.bytesPerSector)
  contiguous : asked.IsChain fun q q' => q'.offset = q.offset + disk.answered q
  disjoint : asked.Pairwise fun q q' => q.offset + disk.answered q ≤ q'.offset

theorem RunRequests.nil (r : Run) : RunRequests disk g r [] where
  bounded _ hq := absurd hq List.not_mem_nil
  onDisk _ hq := absurd hq List.not_mem_nil
  inClusters _ hq := absurd hq List.not_mem_nil
  contiguous := .nil
  disjoint := .nil

/-- No run is longer than its clusters. -/
theorem runBytes_le (g : Geometry) (limit : Nat) (r : Run) :
    runBytes g limit r ≤ r.length.toNat * (g.sectorsPerCluster * g.bytesPerSector) := by
  have hproduct : runBytes g limit r ≤ r.length.toNat * g.clusterSize :=
    Nat.le_trans (Nat.min_le_left ..) (Nat.min_le_left ..)
  exact Nat.le_trans hproduct (Nat.mul_le_mul_left _ (Nat.min_le_left ..))

/-- For a run, the disk is asked for nothing outside the run and nothing outside the disk. -/
theorem readOne_requests (hexceeds : disk.NeverExceeds) (hsize : disk.size ≤ maxWord) (record : UInt64)
    (limit : Nat) (r : Run) : RunRequests disk g r (readOne disk g record limit r).requests := by
  unfold readOne
  cases hlcn : r.lcn with
  | none => exact .nil r
  | some lcn =>
      dsimp only
      obtain ⟨offset, message, hstop⟩ | ⟨start, hstart, hinside, hread⟩ :=
        readRun_cases disk g record (runBytes g limit r) lcn.toNat
      · rw [hstop]
        exact .nil r
      have hexact := Geometry.eq_of_clusterOffset? hstart (by omega)
      have hbytes := runBytes_le g limit r
      have hasks := readSpan_asks hexceeds start (min (runBytes g limit r) (disk.size - start))
      have hall := hasks.inside
      rw [hread, requests_andThen_of_nil fun produced => by split <;> rfl]
      refine ⟨fun q hq => ⟨(hall q hq).1, (hall q hq).2.1⟩, fun q hq => ?_, fun q hq => ?_,
        hasks.isChain, hasks.pairwise⟩
      · have := (hall q hq).2.2.2
        omega
      · refine ⟨lcn, hlcn, hexact ▸ (hall q hq).2.2.1, ?_⟩
        have := (hall q hq).2.2.2
        rw [Nat.add_mul]
        omega

/-- Runs that are not reached are not asked for. -/
theorem forall₂_runRequests_nil (runs : List Run) :
    List.Forall₂ (RunRequests disk g) runs (runs.map fun _ => []) := by
  induction runs with
  | nil => exact .nil
  | cons r rest ih => exact .cons (.nil r) ih

/-- The disk is asked for one run after the other. -/
theorem readRuns_requests (hexceeds : disk.NeverExceeds) (hsize : disk.size ≤ maxWord) (record : UInt64)
    (limit : Nat) (runs : List Run) :
    ∃ asked, List.Forall₂ (RunRequests disk g) runs asked ∧
      (readRuns disk g record limit runs).requests = asked.flatten := by
  induction runs generalizing limit with
  | nil => exact ⟨[], .nil, rfl⟩
  | cons r rest ih =>
      have hunasked : List.Forall₂ (RunRequests disk g) rest (rest.map fun _ => []) :=
        forall₂_runRequests_nil rest
      have hempty : (rest.map fun _ => ([] : List Request)).flatten = [] := by simp
      have hone := readOne_requests (g := g) hexceeds hsize record limit r
      rw [readRuns]
      split
      · exact ⟨_, .cons (.nil r) hunasked, hempty.symm⟩
      · cases hresult : (readOne disk g record limit r).result with
        | error e =>
            rw [andThen_of_error hresult]
            exact ⟨_, .cons hone hunasked, by rw [List.flatten_cons, hempty, List.append_nil]⟩
        | ok ended =>
            rw [requests_andThen_of_ok hresult]
            split
            · obtain ⟨asked, hasked, hrest⟩ := ih (limit - ended.produced)
              exact ⟨_, .cons hone hasked, by rw [List.flatten_cons, ← hrest]; rfl⟩
            · exact ⟨_, .cons hone hunasked, by rw [List.flatten_cons, hempty]; rfl⟩

/-! ## All of the content -/

theorem length_content_readSpan_le (hexceeds : disk.NeverExceeds) (offset wanted : Nat) :
    (readSpan disk offset wanted).content.length ≤ wanted := by
  by_cases h : wanted = 0
  · rw [h, readSpan_zero]
    exact Nat.le_refl _
  rw [readSpan_of_pos disk offset (Nat.pos_of_ne_zero h)]
  refine length_content_andThen_le (Nat.zero_le _) fun answer hanswer => ?_
  have hle : answer.size ≤ wanted :=
    Nat.le_trans (hexceeds (read_result_eq_ok_iff.mp hanswer)) (Nat.min_le_left ..)
  rw [show (disk.read offset (min wanted maxPiece)).content.length = 0 from rfl, Nat.zero_add]
  split
  · exact Nat.zero_le _
  · have hemit : (emit answer).content.length = answer.size := by
      rw [content_emit, Buffer.length_toList]
    refine length_content_andThen_le (hemit ▸ hle) fun _ _ => ?_
    have hrest : (readSpan disk (offset + answer.size) (wanted - answer.size)).content.length ≤
        wanted - answer.size :=
      length_content_readSpan_le hexceeds (offset + answer.size) (wanted - answer.size)
    show (emit answer).content.length +
      (readSpan disk (offset + answer.size) (wanted - answer.size)).content.length ≤ wanted
    omega
termination_by wanted

theorem length_content_readRun_le (hexceeds : disk.NeverExceeds) (record : UInt64) (wanted lcn : Nat) :
    (readRun disk g record wanted lcn).content.length ≤ wanted := by
  obtain ⟨offset, message, hstop⟩ | ⟨start, -, -, hread⟩ := readRun_cases disk g record wanted lcn
  · rw [hstop]
    exact Nat.zero_le _
  · have hspan : (readSpan disk start (min wanted (disk.size - start))).content.length ≤ wanted :=
      Nat.le_trans (length_content_readSpan_le hexceeds ..) (Nat.min_le_left ..)
    rw [hread]
    refine length_content_andThen_le hspan fun produced _ => ?_
    split <;> exact hspan

theorem length_content_readOne_le (hexceeds : disk.NeverExceeds) (record : UInt64) (limit : Nat)
    (r : Run) : (readOne disk g record limit r).content.length ≤ limit := by
  have hbytes : runBytes g limit r ≤ limit := Nat.min_le_right ..
  unfold readOne
  cases r.lcn with
  | none =>
      show ((zeros _).map Buffer.toList).flatten.length ≤ limit
      rw [flatten_zeros, List.length_replicate]
      exact hbytes
  | some lcn => exact Nat.le_trans (length_content_readRun_le hexceeds ..) hbytes

/-- No more bytes are handed over than the limit. -/
theorem length_content_readRuns_le (hexceeds : disk.NeverExceeds) (record : UInt64) (limit : Nat)
    (runs : List Run) : (readRuns disk g record limit runs).content.length ≤ limit := by
  induction runs generalizing limit with
  | nil => exact Nat.zero_le _
  | cons r rest ih =>
      have hone := length_content_readOne_le (g := g) hexceeds record limit r
      rw [readRuns]
      split
      · exact Nat.zero_le _
      · refine length_content_andThen_le hone fun ended hended => ?_
        have hcount := readOne_counts disk g record limit r ended hended
        split
        · have hrest : ((readRuns disk g record (limit - ended.produced) rest).map
              (ended.produced + ·)).content.length ≤ limit - ended.produced := ih _
          omega
        · exact hone

end Content

end Ntfs
