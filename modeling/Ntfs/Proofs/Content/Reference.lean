import Ntfs.Content.Stream
import Ntfs.Proofs.Trace.Content

/-!
# The content of runs in one piece

A disk that gives short answers is read in many steps, each with its own count of what is left.
Here the same content is said at once: zeros or a part of what the disk holds for a run
(`runContent`), and for a list of runs the content of one after the other, up to the first that
cannot be read to its end (`runsContent`).  The readers hand over exactly this, cut at their limit.
-/

namespace Ntfs

namespace Disk

/-- The disk answers with bytes it holds: with the first ones of those asked for that exist, and
without any only if none exists. -/
structure Holds (disk : Disk) (contents : Bytes) : Prop where
  answer_prefix : ∀ {offset length : Nat} {answer : Buffer},
    disk.readAt offset length = .ok answer → answer.toList <+: (contents.drop offset).take length
  answer_ne_nil : ∀ {offset length : Nat} {answer : Buffer},
    disk.readAt offset length = .ok answer → (contents.drop offset).take length ≠ [] →
      answer.toList ≠ []

def NeverFails (disk : Disk) : Prop :=
  ∀ offset length, ∃ answer, disk.readAt offset length = .ok answer

theorem holds_ofBuffer (data : Buffer) : (ofBuffer data).Holds data.toList := by
  have hslice : ∀ offset length, (data.slice offset (offset + length)).toList =
      (data.toList.drop offset).take length := by
    intro offset length
    rw [Buffer.toList_slice, List.drop_take, Nat.add_sub_cancel_left]
  constructor
  · intro offset length answer h
    cases h
    exact hslice offset length ▸ List.prefix_rfl
  · intro offset length answer h hne
    cases h
    rwa [hslice]

theorem neverFails_ofBuffer (data : Buffer) : (ofBuffer data).NeverFails :=
  fun offset length => ⟨data.slice offset (offset + length), rfl⟩

theorem holds_ofList (bytes : Bytes) : (ofBuffer (.ofList bytes)).Holds bytes := by
  have hholds := holds_ofBuffer (.ofList bytes)
  rwa [Buffer.toList_ofList] at hholds

theorem readAt_ofList (bytes : Bytes) (offset length : Nat) :
    (ofBuffer (.ofList bytes)).readAt offset length =
      .ok (.ofList ((bytes.take (offset + length)).drop offset)) := by
  apply congrArg Except.ok
  ext1
  rw [Buffer.toList_slice, Buffer.toList_ofList, Buffer.toList_ofList]

/-- A device in memory holds its data, if a read returns at least one byte. -/
theorem holds_ofImage (image : Image) (hread : image.maxRead ≠ some 0) :
    (ofImage image).Holds image.data.toList := by
  have hslice : ∀ offset length, (image.data.slice (min offset image.data.size)
      (min (offset + length) image.data.size)).toList =
        (image.data.toList.drop offset).take length := by
    intro offset length
    apply List.ext_getElem
    · simp only [Buffer.toList_slice, List.length_drop, List.length_take, Buffer.length_toList]
      omega
    · intro i hi _
      simp only [Buffer.toList_slice, List.length_drop, List.length_take,
        Buffer.length_toList] at hi
      simp only [Buffer.toList_slice, List.getElem_drop, List.getElem_take]
      congr 1
      omega
  have hanswer : ∀ {offset length answer}, (ofImage image).readAt offset length = .ok answer →
      ∃ count, answer.toList = (image.data.toList.drop offset).take count ∧ count ≤ length ∧
        (0 < length → 0 < count) := by
    intro offset length answer h
    obtain ⟨count, hle, hpos, hcut⟩ : ∃ count, count ≤ length ∧ (0 < length → 0 < count) ∧
        (if image.meetsFailure (min offset image.data.size) (min (offset + count) image.data.size)
          then .error image.failure
          else .ok (image.data.slice (min offset image.data.size)
            (min (offset + count) image.data.size))) = Except.ok answer := by
      cases hmost : image.maxRead with
      | none => exact ⟨length, Nat.le_refl _, id, by simpa only [ofImage, hmost] using h⟩
      | some most =>
          have hpos : most ≠ 0 := fun hzero => hread (by rw [hmost, hzero])
          exact ⟨min length most, by omega, by omega, by simpa only [ofImage, hmost] using h⟩
    split at hcut
    · cases hcut
    · cases hcut
      exact ⟨count, hslice offset count, hle, hpos⟩
  constructor
  · intro offset length answer h
    obtain ⟨count, hcount, hle, -⟩ := hanswer h
    rw [hcount]
    exact List.take_prefix_take_left hle
  · intro offset length answer h hne
    obtain ⟨count, hcount, -, hpos⟩ := hanswer h
    simp only [ne_eq, List.take_eq_nil_iff, not_or] at hne
    rw [hcount, ne_eq, List.take_eq_nil_iff, not_or]
    exact ⟨Nat.ne_of_gt (hpos (Nat.pos_of_ne_zero hne.1)), hne.2⟩

theorem neverFails_ofImage (image : Image) (hfailing : image.failing = []) :
    (ofImage image).NeverFails := by
  intro offset length
  have hmeets : ∀ start stop, image.meetsFailure start stop = false := by
    simp [Image.meetsFailure, hfailing]
  simp only [ofImage, hmeets]
  exact ⟨_, rfl⟩

end Disk

namespace Trace

theorem read_result_eq_ok_iff {disk : Disk} {offset length : Nat} {answer : Buffer} :
    (disk.read offset length).result = .ok answer ↔ disk.readAt offset length = .ok answer := by
  rw [Disk.read]
  cases disk.readAt offset length with
  | ok a =>
      constructor
      · exact fun h => congrArg Except.ok (Except.ok.inj h)
      · exact fun h => congrArg Except.ok (Except.ok.inj h)
  | error reason => exact ⟨fun h => (by cases h), fun h => (by cases h)⟩

theorem returns_read {disk : Disk} {offset length : Nat} {answer : Buffer}
    (h : disk.readAt offset length = .ok answer) :
    (disk.read offset length).Returns [] answer := by
  intro b hb
  rw [read_result_eq_ok_iff, h] at hb
  cases hb
  exact ⟨rfl, rfl⟩

end Trace

namespace Content

section Reference

variable (disk : Disk) (contents : Bytes) (g : Geometry)

/-- The byte of the disk at which a cluster starts, if the disk reaches that far. -/
def firstByte? (lcn : Nat) : Option Nat := (g.clusterOffset? lcn).filter (· < disk.size)

/-- The content of a run: zeros if it is sparse, else the bytes from its first cluster on that exist
in front of the reported end of the disk. -/
def runContent (r : Run) : Bytes :=
  match r.lcn with
  | none => List.replicate (r.length.toNat * g.clusterSize) 0
  | some lcn =>
    match firstByte? disk g lcn.toNat with
    | none => []
    | some start =>
      (contents.drop start).take (min (r.length.toNat * g.clusterSize) (disk.size - start))

/-- Whether the first byte of a run can be asked for. -/
def isInside (r : Run) : Bool :=
  match r.lcn with
  | none => true
  | some lcn => (firstByte? disk g lcn.toNat).isSome

/-- Whether all of a run can be read. -/
def isWhole (r : Run) : Bool :=
  isInside disk g r && (runContent disk contents g r).length == r.length.toNat * g.clusterSize

/-- The content of runs, up to the first that cannot be read to its end. -/
def runsContent : List Run → Bytes
  | [] => []
  | r :: rest =>
    runContent disk contents g r ++ if isWhole disk contents g r then runsContent rest else []

def storedBytes : AttributeBody → Bytes
  | .data bytes | .raw bytes => bytes
  | .bitmap m => m.bytes.toList
  | _ => []

/-- The content of an attribute: the bytes that stand in the record, or those of its runs. -/
def attributeContent (a : Attribute) : Bytes :=
  match a.residency with
  | .resident _ => storedBytes a.body
  | .nonResident form => runsContent disk contents g form.runList.runs

end Reference

/-- One byte a read from a disk of three clusters. -/
def slowImage : Disk.Image := ⟨.ofList [0, 0, 1, 2, 3, 4], 6, [], "", some 1⟩

theorem holds_slowImage : (Disk.ofImage slowImage).Holds [0, 0, 1, 2, 3, 4] := by
  have hlist : slowImage.data.toList = [0, 0, 1, 2, 3, 4] := Buffer.toList_ofList _
  rw [← hlist]
  exact Disk.holds_ofImage slowImage (by decide)

/-- Three bytes in two clusters, the first of them sparse. -/
def halfSparse : NonResidentForm :=
  ⟨0, 1, 0x40, 0, 4, 3, 3, ⟨[⟨1, 0, none⟩, ⟨1, 1, some 1⟩], true, none⟩⟩

def halfSparseData : Attribute :=
  ⟨⟨.data, 0x48, true, 0, 0, 0, 0, none⟩, .nonResident halfSparse, .data []⟩

example : attributeContent (.ofImage slowImage) [0, 0, 1, 2, 3, 4] ⟨0, 2, 1⟩ halfSparseData =
    [0, 0, 1, 2] := by decide +kernel

variable {disk : Disk} {contents : Bytes} {g : Geometry}

/-! ## Spans -/

/-- An answer is the first of the bytes asked for, and they do not end before it. -/
theorem answer_eq_take (hholds : disk.Holds contents) {offset length : Nat} {answer : Buffer}
    (h : disk.readAt offset length = .ok answer) :
    answer.toList = (contents.drop offset).take answer.size ∧ answer.size ≤ length := by
  have hprefix := hholds.answer_prefix h
  have hlength := hprefix.length_le
  rw [Buffer.length_toList, List.length_take] at hlength
  have htake := List.prefix_iff_eq_take.mp hprefix
  rw [Buffer.length_toList, List.take_take, Nat.min_eq_left (by omega)] at htake
  exact ⟨htake, by omega⟩

/-- An empty answer tells that the disk has no contents from there on. -/
theorem drop_eq_nil_of_answer (hholds : disk.Holds contents) {offset length : Nat}
    {answer : Buffer} (hlength : 0 < length) (h : disk.readAt offset length = .ok answer)
    (hempty : answer.size = 0) : contents.drop offset = [] := by
  have hnil : answer.toList = [] := by
    rw [← List.length_eq_zero_iff, Buffer.length_toList, hempty]
  have htake : (contents.drop offset).take length = [] :=
    Classical.byContradiction fun hne => hholds.answer_ne_nil h hne hnil
  rcases List.take_eq_nil_iff.mp htake with hzero | hdrop
  · omega
  · exact hdrop

/-- However short the answers are, a span is read to its end or to that of the contents. -/
theorem readSpan_returns (hholds : disk.Holds contents) (offset wanted : Nat) :
    (readSpan disk offset wanted).Returns ((contents.drop offset).take wanted)
      ((contents.drop offset).take wanted).length := by
  by_cases hwanted : wanted = 0
  · subst hwanted
    rw [readSpan_zero, List.take_zero]
    exact Trace.returns_done 0
  have hpos : 0 < wanted := Nat.pos_of_ne_zero hwanted
  rw [readSpan_of_pos disk offset hpos]
  intro n hn
  obtain ⟨answer, hanswer, -⟩ := Trace.andThen_result_eq_ok_iff.mp hn
  rw [Trace.read_result_eq_ok_iff] at hanswer
  refine ((Trace.returns_read hanswer).andThen ?_) n hn
  by_cases hempty : answer.size = 0
  · have hpiece : 0 < min wanted maxPiece := Nat.lt_min.mpr ⟨hpos, by decide⟩
    rw [if_pos hempty, drop_eq_nil_of_answer hholds hpiece hanswer hempty, List.take_nil]
    exact Trace.returns_done 0
  · obtain ⟨htake, hle⟩ := answer_eq_take hholds hanswer
    have hsize : answer.size ≤ wanted := by omega
    have hrest := readSpan_returns hholds (offset + answer.size) (wanted - answer.size)
    have hbytes : answer.toList ++ (contents.drop (offset + answer.size)).take
        (wanted - answer.size) = (contents.drop offset).take wanted := by
      rw [htake, ← List.drop_drop, ← List.take_add, Nat.add_sub_cancel' hsize]
    rw [if_neg hempty, ← hbytes, List.length_append, Buffer.length_toList]
    exact (Trace.returns_emit answer).andThen (hrest.map (answer.size + ·))
termination_by wanted

/-- On a disk that never refuses, every span is read to an end. -/
theorem readSpan_succeeds (hholds : disk.Holds contents) (hnever : disk.NeverFails)
    (offset wanted : Nat) : (readSpan disk offset wanted).Succeeds := by
  by_cases hwanted : wanted = 0
  · subst hwanted
    rw [readSpan_zero]
    exact Trace.succeeds_done 0
  rw [readSpan_of_pos disk offset (Nat.pos_of_ne_zero hwanted)]
  obtain ⟨answer, hanswer⟩ := hnever offset (min wanted maxPiece)
  refine Trace.Succeeds.andThen ⟨answer, Trace.read_result_eq_ok_iff.mpr hanswer⟩ ?_
  intro answer' _
  by_cases hempty : answer'.size = 0
  · rw [if_pos hempty]
    exact Trace.succeeds_done 0
  · rw [if_neg hempty]
    refine Trace.Succeeds.andThen ⟨(), rfl⟩ fun _ _ => ?_
    exact (readSpan_succeeds hholds hnever _ _).map _
termination_by wanted
decreasing_by omega

/-! ## Runs -/

theorem runBytes_eq {limit : Nat} (hlimit : limit ≤ maxWord) (r : Run) :
    runBytes g limit r = min (r.length.toNat * g.clusterSize) limit := by
  unfold runBytes
  omega

theorem runContent_of_inside {r : Run} {lcn : UInt64} {start : Nat} (hlcn : r.lcn = some lcn)
    (h : firstByte? disk g lcn.toNat = some start) :
    runContent disk contents g r =
      (contents.drop start).take (min (r.length.toNat * g.clusterSize) (disk.size - start)) := by
  simp only [runContent, hlcn, h]

theorem length_runContent_le (disk : Disk) (contents : Bytes) (g : Geometry) (r : Run) :
    (runContent disk contents g r).length ≤ r.length.toNat * g.clusterSize := by
  unfold runContent
  split
  · simp
  · split
    · simp
    · rw [List.length_take]
      omega

/-- A run that starts outside the disk gives nothing but a warning. -/
theorem readRun_of_outside {lcn : Nat} (h : firstByte? disk g lcn = none) (record : UInt64)
    (wanted : Nat) :
    ∃ offset message, readRun disk g record wanted lcn = stopWith record offset message 0 := by
  unfold readRun
  cases hstart : g.clusterOffset? lcn with
  | none => exact ⟨_, _, rfl⟩
  | some start =>
      simp only [firstByte?, hstart, Option.filter_eq_none_iff, Option.some.injEq,
        decide_eq_true_eq, forall_eq', Nat.not_lt] at h
      simp only [if_pos h]
      exact ⟨_, _, rfl⟩

/-- A run that starts inside the disk is read as far as the disk goes, with a warning if that is not all
of it. -/
theorem readRun_of_inside {lcn start : Nat} (h : firstByte? disk g lcn = some start)
    (record : UInt64) (wanted : Nat) :
    readRun disk g record wanted lcn =
      (readSpan disk start (min wanted (disk.size - start))).andThen fun produced =>
        if produced < wanted then
          stopWith record (start + produced)
            s!"run of {wanted} bytes cut to {produced} at the disk end" produced
        else .done ⟨produced, true⟩ := by
  simp only [firstByte?, Option.filter_eq_some_iff, decide_eq_true_eq] at h
  rw [readRun, h.1]
  simp only [if_neg (Nat.not_le.mpr h.2)]

theorem stopWith_returns (record : UInt64) (offset : Nat) (message : String) (produced : Nat) :
    (stopWith record offset message produced).Returns [] ⟨produced, false⟩ :=
  (Trace.returns_warn _).map _

/-- A run that starts inside the disk gives the contents from there on, as far as the disk goes. -/
theorem readRun_returns (hholds : disk.Holds contents) {lcn start : Nat}
    (h : firstByte? disk g lcn = some start) (record : UInt64) {wanted n : Nat}
    (hn : ((contents.drop start).take (min wanted (disk.size - start))).length = n) :
    (readRun disk g record wanted lcn).Returns
      ((contents.drop start).take (min wanted (disk.size - start))) ⟨n, n == wanted⟩ := by
  have hle : n ≤ wanted := by
    rw [← hn, List.length_take]
    omega
  have hspan := readSpan_returns hholds start (min wanted (disk.size - start))
  rw [hn] at hspan
  rw [readRun_of_inside h, ← List.append_nil ((contents.drop start).take _)]
  refine hspan.andThen ?_
  by_cases hshort : n < wanted
  · rw [if_pos hshort, beq_eq_false_iff_ne.mpr (Nat.ne_of_lt hshort)]
    exact stopWith_returns _ _ _ _
  · rw [if_neg hshort, Nat.le_antisymm hle (Nat.not_lt.mp hshort), beq_self_eq_true]
    exact Trace.returns_done _

/-- What is read of one run: its content up to the limit.  The next run is read when nothing of the
part asked for is missing. -/
theorem readOne_returns (hholds : disk.Holds contents) {limit : Nat} (hlimit : limit ≤ maxWord)
    (record : UInt64) (r : Run) :
    (readOne disk g record limit r).Returns ((runContent disk contents g r).take limit)
      ⟨((runContent disk contents g r).take limit).length,
        isInside disk g r && ((runContent disk contents g r).take limit).length ==
          min (r.length.toNat * g.clusterSize) limit⟩ := by
  simp only [readOne, runBytes_eq hlimit]
  generalize hwanted : min (r.length.toNat * g.clusterSize) limit = wanted
  cases hlcn : r.lcn with
  | none =>
      have hbytes : (List.replicate (r.length.toNat * g.clusterSize) (0 : UInt8)).take limit =
          ((zeros wanted).map Buffer.toList).flatten := by
        rw [flatten_zeros, List.take_replicate, Nat.min_comm, hwanted]
      have hlength : (((zeros wanted).map Buffer.toList).flatten).length = wanted := by
        rw [flatten_zeros, List.length_replicate]
      simp only [runContent, isInside, hlcn, hbytes, hlength, Bool.true_and, beq_self_eq_true]
      exact (Trace.returns_emitAll (zeros wanted)).map _
  | some lcn =>
      cases hstart : firstByte? disk g lcn.toNat with
      | none =>
          obtain ⟨offset, message, hstop⟩ := readRun_of_outside hstart record wanted
          simp only [runContent, isInside, hlcn, hstart, hstop, List.take_nil, List.length_nil,
            Option.isSome_none, Bool.false_and]
          exact stopWith_returns _ _ _ _
      | some start =>
          have hbytes : ((contents.drop start).take (min (r.length.toNat * g.clusterSize)
              (disk.size - start))).take limit =
              (contents.drop start).take (min wanted (disk.size - start)) := by
            rw [List.take_take, ← hwanted]
            congr 1
            omega
          simp only [runContent, isInside, hlcn, hstart, hbytes, Option.isSome_some, Bool.true_and]
          exact readRun_returns hholds hstart record rfl

/-- A run that is cut by the limit needs no more of the disk than the part asked for: cutting the
content of all runs is the same as reading part by part with what is left of the limit. -/
theorem take_runsContent_cons (limit : Nat) (r : Run) (rest : List Run) :
    (runsContent disk contents g (r :: rest)).take limit =
      (runContent disk contents g r).take limit ++
        if isInside disk g r && ((runContent disk contents g r).take limit).length ==
            min (r.length.toNat * g.clusterSize) limit
        then (runsContent disk contents g rest).take
          (limit - ((runContent disk contents g r).take limit).length)
        else [] := by
  rw [runsContent, List.take_append]
  congr 1
  have hle := length_runContent_le disk contents g r
  cases hinside : isInside disk g r with
  | false => simp [isWhole, hinside]
  | true =>
      simp only [isWhole, hinside, Bool.true_and, List.length_take, beq_iff_eq]
      by_cases hcut : limit ≤ (runContent disk contents g r).length
      · rw [Nat.sub_eq_zero_of_le hcut, Nat.min_eq_left hcut, Nat.sub_self]
        simp
      · have hmin : min limit (runContent disk contents g r).length =
            (runContent disk contents g r).length := by omega
        have hiff : (runContent disk contents g r).length =
            min (r.length.toNat * g.clusterSize) limit ↔
            (runContent disk contents g r).length = r.length.toNat * g.clusterSize := by omega
        rw [hmin]
        simp only [hiff]
        split
        · rfl
        · rw [List.take_nil]

/-- Runs give their content, cut to the limit. -/
theorem readRuns_returns (hholds : disk.Holds contents) (record : UInt64) {limit : Nat}
    (hlimit : limit ≤ maxWord) (runs : List Run) :
    (readRuns disk g record limit runs).Returns ((runsContent disk contents g runs).take limit)
      ((runsContent disk contents g runs).take limit).length := by
  induction runs generalizing limit with
  | nil =>
      simp only [readRuns, runsContent, List.take_nil, List.length_nil]
      exact Trace.returns_done 0
  | cons r rest ih =>
      by_cases hzero : limit = 0
      · simp only [readRuns, hzero, if_true, List.take_zero, List.length_nil]
        exact Trace.returns_done 0
      rw [readRuns, if_neg hzero, take_runsContent_cons, List.length_append]
      refine (readOne_returns hholds hlimit record r).andThen ?_
      dsimp only
      split
      · exact (ih (by omega)).map _
      · exact Trace.returns_done _

theorem toList_of_residentContent? {body : AttributeBody} {content : Buffer}
    (h : residentContent? body = some content) : content.toList = storedBytes body := by
  cases body <;> cases h <;> simp [storedBytes]

/-- An attribute gives its content, cut to the limit, be it stored in the record or on the disk. -/
theorem walk_returns (hholds : disk.Holds contents) (record : UInt64) {limit : Nat}
    (hlimit : limit ≤ maxWord) (a : Attribute) :
    (walk disk g record limit a).Returns ((attributeContent disk contents g a).take limit)
      ((attributeContent disk contents g a).take limit).length := by
  unfold walk attributeContent
  cases a.residency with
  | nonResident form => exact readRuns_returns hholds record hlimit form.runList.runs
  | resident form =>
      cases hcontent : residentContent? a.body with
      | none =>
          intro n hn
          cases hn
      | some content =>
          have hslice : (content.slice 0 limit).toList = (storedBytes a.body).take limit := by
            rw [Buffer.toList_slice, List.drop_zero, toList_of_residentContent? hcontent]
          dsimp only
          rw [← hslice, Buffer.length_toList]
          exact (Trace.returns_emit _).map _

/-- The parts of a stream give the content of its attributes one after the other, cut to the limit. -/
theorem walkParts_returns (hholds : disk.Holds contents) {limit : Nat} (hlimit : limit ≤ maxWord)
    (found : List (UInt64 × Attribute)) :
    (walkParts disk g limit found).Returns
      ((found.flatMap fun part => attributeContent disk contents g part.2).take limit)
      ((found.flatMap fun part => attributeContent disk contents g part.2).take limit).length := by
  induction found generalizing limit with
  | nil =>
      simp only [walkParts, List.flatMap_nil, List.take_nil, List.length_nil]
      exact Trace.returns_done 0
  | cons part rest ih =>
      obtain ⟨record, a⟩ := part
      by_cases hzero : limit = 0
      · simp only [walkParts, hzero, if_true, List.take_zero, List.length_nil]
        exact Trace.returns_done 0
      have hleft : limit - (attributeContent disk contents g a).length =
          limit - ((attributeContent disk contents g a).take limit).length := by
        rw [List.length_take]
        omega
      rw [walkParts, if_neg hzero, List.flatMap_cons, List.take_append, List.length_append, hleft]
      exact (walk_returns hholds record hlimit a).andThen ((ih (by omega)).map _)

/-! ## Disks that never refuse -/

theorem readOne_succeeds (hholds : disk.Holds contents) (hnever : disk.NeverFails)
    (record : UInt64) (limit : Nat) (r : Run) : (readOne disk g record limit r).Succeeds := by
  simp only [readOne]
  cases r.lcn with
  | none => exact ⟨_, rfl⟩
  | some lcn =>
      cases hstart : firstByte? disk g lcn.toNat with
      | none =>
          obtain ⟨offset, message, hstop⟩ :=
            readRun_of_outside hstart record (runBytes g limit r)
          change (readRun disk g record (runBytes g limit r) lcn.toNat).Succeeds
          rw [hstop]
          exact ⟨_, rfl⟩
      | some start =>
          simp only [readRun_of_inside hstart]
          refine (readSpan_succeeds hholds hnever _ _).andThen fun produced _ => ?_
          split
          · exact ⟨_, rfl⟩
          · exact Trace.succeeds_done _

theorem readRuns_succeeds (hholds : disk.Holds contents) (hnever : disk.NeverFails)
    (record : UInt64) (limit : Nat) (runs : List Run) :
    (readRuns disk g record limit runs).Succeeds := by
  induction runs generalizing limit with
  | nil => exact Trace.succeeds_done 0
  | cons r rest ih =>
      rw [readRuns]
      split
      · exact Trace.succeeds_done 0
      refine (readOne_succeeds hholds hnever record limit r).andThen fun ended _ => ?_
      split
      · exact (ih _).map _
      · exact Trace.succeeds_done _

/-- Only a value in a record that was not kept as bytes cannot be read from a disk that never refuses. -/
theorem walk_succeeds (hholds : disk.Holds contents) (hnever : disk.NeverFails) (record : UInt64)
    (limit : Nat) {a : Attribute}
    (hresident : a.isNonResident = false → (residentContent? a.body).isSome) :
    (walk disk g record limit a).Succeeds := by
  unfold walk
  cases hresidency : a.residency with
  | nonResident form => exact readRuns_succeeds hholds hnever record limit form.runList.runs
  | resident form =>
      have hsome := hresident (by
        simp [Attribute.isNonResident, Attribute.nonResident?, hresidency])
      obtain ⟨content, hcontent⟩ := Option.isSome_iff_exists.mp hsome
      exact ⟨_, by rw [hcontent]; rfl⟩

/-- On a disk that never refuses, the content of an attribute is read in full, cut to its length. -/
theorem ofAttribute_result (hholds : disk.Holds contents) (hnever : disk.NeverFails) (record : UInt64)
    {a : Attribute} (hresident : a.isNonResident = false → (residentContent? a.body).isSome) :
    (ofAttribute disk g record a).result =
      .ok (.ofList ((attributeContent disk contents g a).take a.contentSize.toNat)) := by
  obtain ⟨n, hn⟩ := walk_succeeds (g := g) hholds hnever record a.contentSize.toNat hresident
  refine Trace.collect_result_eq_ok_iff.mpr ⟨⟨n, hn⟩, ?_⟩
  have hlimit : a.contentSize.toNat ≤ maxWord := Nat.le_of_lt_succ a.contentSize.toNat_lt
  rw [Buffer.toList_ofList, (walk_returns hholds record hlimit a n hn).1]

theorem walkParts_succeeds (hholds : disk.Holds contents) (hnever : disk.NeverFails) (limit : Nat)
    {found : List (UInt64 × Attribute)}
    (hresident : ∀ part ∈ found, part.2.isNonResident = false →
      (residentContent? part.2.body).isSome) :
    (walkParts disk g limit found).Succeeds := by
  induction found generalizing limit with
  | nil => exact Trace.succeeds_done 0
  | cons part rest ih =>
      obtain ⟨record, a⟩ := part
      rw [walkParts]
      split
      · exact Trace.succeeds_done 0
      have hfirst := hresident (record, a) List.mem_cons_self
      refine (walk_succeeds hholds hnever record limit hfirst).andThen fun produced _ => ?_
      exact (ih _ fun part hpart => hresident part (List.mem_cons_of_mem _ hpart)).map _

end Content

end Ntfs
