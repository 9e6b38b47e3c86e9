import Ntfs.Proofs.Content.Requests
import Ntfs.Proofs.Machine.Basic

/-!
# Reading content with checked operations

Content is read with counters of 64 bits: what of the limit is left, how much came, and how much of a run
came.  Cluster sizes and the lengths of runs are taken from the disk, as are its size and the answers, so
it is to be shown that no counter leaves its range.  The loops below stop the machine wherever one would.
On a disk that answers with no more than it is asked for, they never do, and do what the library does
(`content_eq`).  Together with what is asked of the disk, this is `reading_stays_inside`.
-/

namespace Ntfs.Machine

/-- Work on the machine that may ask a disk. -/
inductive Reading (α : Type) where
  /-- It leaves a trace. -/
  | done (x : Trace α)
  /-- It ends with a fault. -/
  | stop (fault : Fault)

namespace Reading

variable {α β : Type}

def andThen (x : Reading α) (f : α → Reading β) : Reading β :=
  match x with
  | stop fault => stop fault
  | done x =>
    match x.result with
    | .error e => done ⟨x.requests, x.chunks, x.warnings, .error e⟩
    | .ok a =>
      match f a with
      | stop fault => stop fault
      | done y =>
        done ⟨x.requests ++ y.requests, x.chunks ++ y.chunks, x.warnings ++ y.warnings, y.result⟩

instance : Monad Reading where
  pure a := done (.done a)
  bind := andThen

/-- Compute with words. -/
def word (x : Work α) : Reading α :=
  match x with
  | .done a => done (.done a.value)
  | .stop fault => stop fault

@[simp]
theorem pure_eq_done (a : α) : (pure a : Reading α) = done (.done a) := rfl

@[simp]
theorem bind_eq_andThen (x : Reading α) (f : α → Reading β) : x >>= f = x.andThen f := rfl

theorem done_andThen_of_done {x : Trace α} {f : α → Reading β} {f' : α → Trace β}
    (h : ∀ a, x.result = .ok a → f a = done (f' a)) :
    (done x).andThen f = done (x.andThen f') := by
  cases hresult : x.result with
  | error e => simp only [andThen, Trace.andThen, hresult]
  | ok a => simp only [andThen, Trace.andThen, hresult, h a hresult]

/-- Work whose result is changed is followed by work on the changed result. -/
theorem done_map_andThen_of_done {γ : Type} {x : Trace γ} {change : γ → α} {f : α → Reading β}
    {f' : γ → Trace β} (h : ∀ c, x.result = .ok c → f (change c) = done (f' c)) :
    (done (x.map change)).andThen f = done (x.andThen f') := by
  cases hresult : x.result with
  | error e => simp only [andThen, Trace.andThen, Trace.map, Except.map, hresult]
  | ok c => simp only [andThen, Trace.andThen, Trace.map, Except.map, hresult, h c hresult]

@[simp]
theorem done_done_andThen (a : α) (f : α → Reading β) : (done (.done a)).andThen f = f a := by
  cases h : f a <;> simp [andThen, Trace.done, h]

@[simp]
theorem word_clean_andThen (a : α) (f : α → Reading β) :
    (word (.done (.clean a))).andThen f = f a :=
  done_done_andThen a f

/-! ## Loops -/

/-- Read the bytes of a span from `count` on. -/
def span (disk : Disk) (start wanted count : Nat) : Reading Nat :=
  if count < wanted then do
    let left ← word (sub wanted count)
    let offset ← word (add start count)
    let answer ← done (disk.read offset (min left Content.maxPiece))
    if _hempty : answer.size = 0 then pure count
    else do
      done (Trace.emit answer)
      let ⟨next, _hnext⟩ ← word (addOn count answer.size)
      span disk start wanted next
  else pure count
termination_by wanted - count
decreasing_by omega

def zeros (left : Nat) : Reading Unit :=
  if _hleft : 0 < left then do
    let length := min left Content.maxPiece
    done (Trace.emit (Content.zeroPiece.slice 0 length))
    let ⟨rest, _hrest⟩ ← word (subOn left length)
    zeros rest
  else pure ()
termination_by left
decreasing_by
  have : 0 < Content.maxPiece := by decide
  omega

def clusterSize (g : Geometry) : Nat := saturatingMul g.sectorsPerCluster g.bytesPerSector

def clusterOffset? (g : Geometry) (lcn : Nat) : Option Nat :=
  (checkedMul? lcn (clusterSize g)).bind fun offset => checkedAdd? offset g.start

/-- What is left of the limit after a run and how much came so far, and whether the next run is to be
read. -/
structure Counters where
  remaining : Nat
  produced : Nat
  goOn : Bool

def stopWith (record : UInt64) (offset : Nat) (message : String) (remaining produced : Nat) :
    Reading Counters := do
  done (Trace.warn (.outOfRange record (UInt64.ofNat offset) message))
  return ⟨remaining, produced, false⟩

def sparseRun (remaining produced wanted : Nat) : Reading Counters := do
  zeros wanted
  let remaining ← word (sub remaining wanted)
  let produced ← word (add produced wanted)
  return ⟨remaining, produced, true⟩

/-- Read a run that starts at a byte of the disk. -/
def locatedRun (disk : Disk) (record : UInt64) (remaining produced wanted start : Nat) :
    Reading Counters := do
  let inDisk ← word (sub disk.size start)
  let came ← span disk start (min wanted inDisk) 0
  let remaining ← word (sub remaining came)
  let produced ← word (add produced came)
  if came < wanted then do
    let stop ← word (add start came)
    stopWith record stop s!"run of {wanted} bytes cut to {came} at the disk end" remaining produced
  else return ⟨remaining, produced, true⟩

/-- Read a run that starts at cluster `lcn`. -/
def clusterRun (disk : Disk) (g : Geometry) (record : UInt64) (remaining produced wanted lcn : Nat) :
    Reading Counters :=
  match clusterOffset? g lcn with
  | none => stopWith record maxWord s!"cluster {lcn} overflows the address space" remaining produced
  | some start =>
    if disk.size ≤ start then
      stopWith record start
        (s!"cluster {lcn} starts past the disk end 0x" ++ Hex.upper 1 disk.size) remaining produced
    else locatedRun disk record remaining produced wanted start

def run (disk : Disk) (g : Geometry) (record : UInt64) (remaining produced : Nat) (r : Run) :
    Reading Counters :=
  let wanted := min (saturatingMul r.length.toNat (clusterSize g)) remaining
  match r.lcn with
  | none => sparseRun remaining produced wanted
  | some lcn => clusterRun disk g record remaining produced wanted lcn.toNat

def runs (disk : Disk) (g : Geometry) (record : UInt64) (remaining produced : Nat) :
    List Run → Reading Nat
  | [] => pure produced
  | r :: rest =>
    if remaining = 0 then pure produced
    else do
      let counters ← run disk g record remaining produced r
      if counters.goOn then runs disk g record counters.remaining counters.produced rest
      else return counters.produced

/-- Read non-resident content, at most `limit` bytes of it. -/
def content (disk : Disk) (g : Geometry) (record : UInt64) (limit : Nat) (form : NonResidentForm) :
    Reading Nat :=
  runs disk g record limit 0 form.runList.runs

/-! ## No counter leaves its range -/

section Laws

variable {disk : Disk} {g : Geometry}

/-- Reading a span on the machine never fails if the end of the span is a word. -/
theorem span_eq (hexceeds : disk.NeverExceeds) {start wanted : Nat} (hend : start + wanted ≤ maxWord)
    {count : Nat} (hcount : count ≤ wanted) :
    span disk start wanted count =
      done ((Content.readSpan disk (start + count) (wanted - count)).map (count + ·)) := by
  rw [span]
  split
  · rename_i hlt
    simp only [sub_of_le hcount, add_of_le (show start + count ≤ maxWord by omega), bind_eq_andThen,
      word_clean_andThen]
    rw [Content.readSpan_of_pos disk (start + count) (by omega), Trace.andThen_map]
    refine done_andThen_of_done fun answer hanswer => ?_
    have hle : answer.size ≤ wanted - count :=
      Nat.le_trans (hexceeds (Trace.read_result_eq_ok_iff.mp hanswer)) (Nat.min_le_left ..)
    split
    · rfl
    · rw [Trace.andThen_map]
      refine done_andThen_of_done fun _ _ => ?_
      have hrest := span_eq hexceeds hend (show count + answer.size ≤ wanted by omega)
      rw [addOn_of_le (show count + answer.size ≤ maxWord by omega), word_clean_andThen, hrest,
        Trace.map_map, Nat.add_assoc start, Nat.sub_sub]
      simp only [Nat.add_assoc]
  · rw [show wanted - count = 0 by omega, Content.readSpan_zero]
    rfl
termination_by wanted - count

/-- Some zeros are one piece of them and the others. -/
theorem zeros_of_pos {left : Nat} (h : 0 < left) :
    Content.zeros left = Content.zeroPiece.slice 0 (min left Content.maxPiece) ::
      Content.zeros (left - min left Content.maxPiece) := by
  have hpiece : 0 < Content.maxPiece := by decide
  rcases Nat.lt_or_ge left Content.maxPiece with hlt | hge
  · rw [Nat.min_eq_left (Nat.le_of_lt hlt), Nat.sub_self, Content.zeros, Nat.div_eq_of_lt hlt,
      Nat.mod_eq_of_lt hlt, if_neg (Nat.ne_of_gt h)]
    rfl
  · have hwhole : Content.zeroPiece.slice 0 Content.maxPiece = Content.zeroPiece :=
      Buffer.ext (by rw [Buffer.toList_slice, Content.toList_zeroPiece, List.drop_zero,
        List.take_replicate, Nat.min_self])
    rw [Nat.min_eq_right hge, hwhole, Content.zeros, Content.zeros, Nat.div_eq_sub_div hpiece hge,
      Nat.mod_eq_sub_mod hge, List.replicate_succ, List.cons_append]

theorem zeros_eq (left : Nat) : zeros left = done (Trace.emitAll (Content.zeros left)) := by
  rw [zeros]
  split
  · rename_i hpos
    have hrest := zeros_eq (left - min left Content.maxPiece)
    rw [zeros_of_pos hpos]
    simp only [subOn_of_le (Nat.min_le_left left Content.maxPiece), bind_eq_andThen,
      word_clean_andThen, hrest]
    exact done_andThen_of_done fun _ _ => rfl
  · obtain rfl : left = 0 := by omega
    rfl
termination_by left
decreasing_by
  have : 0 < Content.maxPiece := by decide
  omega

theorem clusterOffset?_eq (g : Geometry) (lcn : Nat) : clusterOffset? g lcn = g.clusterOffset? lcn := by
  have hcluster : clusterSize g = g.clusterSize := rfl
  rw [clusterOffset?, checkedMul?, hcluster, Geometry.clusterOffset?]
  by_cases hoffset : lcn * g.clusterSize ≤ maxWord
  · simp only [hoffset, if_true, Option.bind_some, checkedAdd?, true_and]
  · simp only [hoffset, if_false, Option.bind_none, false_and]

/-- The counters after a run of which some bytes came. -/
def countersAfter (remaining produced : Nat) (ended : Content.RunEnd) : Counters :=
  ⟨remaining - ended.produced, produced + ended.produced, ended.goOn⟩

theorem stopWith_eq (record : UInt64) (offset : Nat) (message : String)
    (remaining produced came : Nat) :
    stopWith record offset message (remaining - came) (produced + came) =
      done ((Content.stopWith record offset message came).map (countersAfter remaining produced)) := rfl

section Run

variable {remaining produced wanted : Nat} (hwanted : wanted ≤ remaining)
  (hsum : produced + remaining ≤ maxWord)

include hwanted hsum

theorem sparseRun_eq : sparseRun remaining produced wanted =
    done ((Trace.emitAll (Content.zeros wanted)).map fun _ =>
      countersAfter remaining produced ⟨wanted, true⟩) := by
  rw [sparseRun, zeros_eq]
  simp only [sub_of_le hwanted, add_of_le (show produced + wanted ≤ maxWord by omega),
    bind_eq_andThen, word_clean_andThen, pure_eq_done]
  rw [← Trace.andThen_done_eq_map]
  exact done_andThen_of_done fun _ _ => rfl

theorem locatedRun_eq (hexceeds : disk.NeverExceeds) (hsize : disk.size ≤ maxWord) (record : UInt64)
    {start : Nat} (hstart : start < disk.size) :
    locatedRun disk record remaining produced wanted start =
      done (((Content.readSpan disk start (min wanted (disk.size - start))).andThen fun came =>
        if came < wanted then
          Content.stopWith record (start + came)
            s!"run of {wanted} bytes cut to {came} at the disk end" came
        else .done ⟨came, true⟩).map (countersAfter remaining produced)) := by
  have hspan := span_eq hexceeds (show start + min wanted (disk.size - start) ≤ maxWord by omega)
    (Nat.zero_le _)
  rw [locatedRun]
  simp only [sub_of_le (Nat.le_of_lt hstart), bind_eq_andThen, word_clean_andThen, hspan]
  rw [Trace.andThen_map]
  refine done_map_andThen_of_done fun came hcame => ?_
  have hle : came ≤ min wanted (disk.size - start) :=
    Content.readSpan_atMost hexceeds _ _ came hcame
  simp only [Nat.zero_add, sub_of_le (show came ≤ remaining by omega),
    add_of_le (show produced + came ≤ maxWord by omega),
    add_of_le (show start + came ≤ maxWord by omega), word_clean_andThen]
  split <;> rfl

end Run

/-- Reading one run on the machine never fails if what came and what is left add up to a word. -/
theorem run_eq (hexceeds : disk.NeverExceeds) (hsize : disk.size ≤ maxWord) (record : UInt64)
    {remaining produced : Nat} (hsum : produced + remaining ≤ maxWord) (r : Run) :
    run disk g record remaining produced r =
      done ((Content.readOne disk g record remaining r).map (countersAfter remaining produced)) := by
  have hwanted : Content.runBytes g remaining r ≤ remaining := Nat.min_le_right ..
  rw [run, Content.readOne]
  cases r.lcn with
  | none => exact sparseRun_eq hwanted hsum
  | some lcn =>
      dsimp only
      rw [clusterRun, clusterOffset?_eq, Content.readRun]
      cases hstart : g.clusterOffset? lcn.toNat with
      | none => exact stopWith_eq _ _ _ _ _ 0
      | some start =>
          dsimp only
          split
          · exact stopWith_eq _ _ _ _ _ 0
          · rename_i hinside
            exact locatedRun_eq hwanted hsum hexceeds hsize record (Nat.lt_of_not_le hinside)

/-- Reading runs on the machine never fails: what came and what is left add up to no more than before. -/
theorem runs_eq (hexceeds : disk.NeverExceeds) (hsize : disk.size ≤ maxWord) (record : UInt64)
    {remaining produced : Nat} (hsum : produced + remaining ≤ maxWord) (list : List Run) :
    runs disk g record remaining produced list =
      done ((Content.readRuns disk g record remaining list).map (produced + ·)) := by
  induction list generalizing remaining produced with
  | nil => rfl
  | cons r rest ih =>
      rw [runs, Content.readRuns]
      split
      · rfl
      · rw [run_eq hexceeds hsize record hsum, bind_eq_andThen, Trace.andThen_map]
        refine done_map_andThen_of_done fun ended hended => ?_
        have hle : ended.produced ≤ remaining :=
          Content.readOne_atMost hexceeds record remaining r ended hended
        have hrest := ih
          (show produced + ended.produced + (remaining - ended.produced) ≤ maxWord by omega)
        simp only [countersAfter, hrest]
        split
        · rw [Trace.map_map]
          simp only [Nat.add_assoc]
        · rfl

/-- Reading content on the machine never fails, and does what the library does. -/
theorem content_eq (hexceeds : disk.NeverExceeds) (hsize : disk.size ≤ maxWord) (record : UInt64)
    {limit : Nat} (hlimit : limit ≤ maxWord) {a : Attribute} {form : NonResidentForm}
    (hform : a.residency = .nonResident form) :
    content disk g record limit form = done (Content.walk disk g record limit a) := by
  have hruns := runs_eq (g := g) hexceeds hsize record
    (show 0 + limit ≤ maxWord by omega) form.runList.runs
  simp only [content, hruns, Content.walk, hform, Nat.zero_add]
  rw [← Trace.andThen_done_eq_map]
  exact congrArg done (Trace.andThen_done _)

end Laws

/-- The machine does stop when the disk answers with more than it is asked for. -/
example : locatedRun ⟨5, fun _ _ => .ok (.ofList [1, 2])⟩ 0 1 0 1 0 = stop .overflow := by cbv

end Reading

/-- Reading non-resident content asks for at most a megabyte at a time, inside the disk and inside the
clusters of one run, and the bytes that come for a run lie side by side.  It never hands over more than the
limit, it counts what it hands over, and no counter leaves its range. -/
theorem reading_stays_inside (disk : Disk) (g : Geometry) (record : UInt64) (limit : Nat) (a : Attribute)
    (form : NonResidentForm) (hexceeds : disk.NeverExceeds) (hsize : disk.size ≤ maxWord)
    (hlimit : limit ≤ maxWord) (hform : a.residency = .nonResident form) :
    (∃ asked, List.Forall₂ (Content.RunRequests disk g) form.runList.runs asked ∧
      (Content.walk disk g record limit a).requests = asked.flatten) ∧
    (Content.walk disk g record limit a).content.length ≤ limit ∧
    (∀ n, (Content.walk disk g record limit a).result = .ok n →
      (Content.walk disk g record limit a).content.length = n) ∧
    Reading.content disk g record limit form = .done (Content.walk disk g record limit a) := by
  have hwalk : Content.walk disk g record limit a =
      Content.readRuns disk g record limit form.runList.runs := by
    simp only [Content.walk, hform]
  refine ⟨?_, ?_, Content.walk_counts disk g record limit a,
    Reading.content_eq hexceeds hsize record hlimit hform⟩
  · rw [hwalk]
    exact Content.readRuns_requests hexceeds hsize record limit form.runList.runs
  · rw [hwalk]
    exact Content.length_content_readRuns_le hexceeds record limit form.runList.runs

open Content (slowImage halfSparse halfSparseData)

/-- Both requests for the stored cluster are answered with a single byte. -/
theorem reading_stays_inside_halfSparse :
    (Disk.ofImage slowImage).NeverExceeds ∧ (Disk.ofImage slowImage).size ≤ maxWord ∧ 4 ≤ maxWord ∧
    halfSparseData.residency = .nonResident halfSparse ∧
    (∃ asked, List.Forall₂ (Content.RunRequests (.ofImage slowImage) ⟨0, 2, 1⟩)
      halfSparse.runList.runs asked ∧ [⟨2, 2⟩, ⟨3, 1⟩] = asked.flatten) ∧
    (Content.walk (.ofImage slowImage) ⟨0, 2, 1⟩ 0 4 halfSparseData).content.length = 4 ∧
    Reading.content (.ofImage slowImage) ⟨0, 2, 1⟩ 0 4 halfSparse =
      .done (Content.walk (.ofImage slowImage) ⟨0, 2, 1⟩ 0 4 halfSparseData) := by
  have hrequests : (Content.walk (.ofImage slowImage) ⟨0, 2, 1⟩ 0 4 halfSparseData).requests =
      [⟨2, 2⟩, ⟨3, 1⟩] := by decide +kernel
  have hresult : (Content.walk (.ofImage slowImage) ⟨0, 2, 1⟩ 0 4 halfSparseData).result = .ok 4 := by
    decide +kernel
  have hexceeds : (Disk.ofImage slowImage).NeverExceeds := Content.holds_slowImage.neverExceeds
  obtain ⟨⟨asked, hasked, hflatten⟩, -, hcount, hmachine⟩ :=
    reading_stays_inside (.ofImage slowImage) ⟨0, 2, 1⟩ 0 4 halfSparseData halfSparse hexceeds
      (by decide) (by decide) rfl
  exact ⟨hexceeds, by decide, by decide, rfl, ⟨asked, hasked, hrequests ▸ hflatten⟩,
    hcount 4 hresult, hmachine⟩

end Ntfs.Machine
