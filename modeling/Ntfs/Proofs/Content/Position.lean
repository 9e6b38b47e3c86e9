import Ntfs.Proofs.Content.Reference
import Ntfs.Proofs.RunList.Clusters

/-!
# Where a byte of the content lies

A position in the content of runs belongs to one cluster of one run, and all runs before that are
whole; so what stands at a position does not depend on how the runs before it were read.  The same
cluster is found by looking it up in the run list, and without a warning about a read past the end
nothing of the content is missing.
-/

namespace Ntfs.Content

open RunList (clusters clusters_cons)

variable {disk : Disk} {contents : Bytes} {g : Geometry}

/-- A byte of the content of a run is zero if the run is sparse, and else a byte of the disk: it lies as
far behind the first cluster of the run as it lies behind the start of the content. -/
theorem getElem?_runContent {r : Run} {place : Nat} {byte : UInt8}
    (h : (runContent disk contents g r)[place]? = some byte) :
    (r.lcn = none → byte = 0) ∧
    ∀ lcn, r.lcn = some lcn →
      contents[g.start + lcn.toNat * g.clusterSize + place]? = some byte ∧
        g.start + lcn.toNat * g.clusterSize + place < disk.size := by
  cases hlcn : r.lcn with
  | none =>
      simp only [runContent, hlcn, List.getElem?_replicate, Option.ite_none_right_eq_some,
        Option.some.injEq] at h
      exact ⟨fun _ => h.2.symm, fun lcn hsome => by cases hsome⟩
  | some lcn =>
      refine ⟨fun hnone => (by cases hnone), fun lcn' hsome => ?_⟩
      cases hsome
      cases hstart : firstByte? disk g lcn.toNat with
      | none => simp [runContent, hlcn, hstart] at h
      | some start =>
          simp only [runContent, hlcn, hstart] at h
          simp only [firstByte?, Geometry.clusterOffset?, Option.filter_eq_some_iff,
            Option.ite_none_right_eq_some, Option.some.injEq] at hstart
          obtain ⟨⟨-, rfl⟩, -⟩ := hstart
          have hplace := (List.getElem?_eq_some_iff.mp h).1
          rw [List.length_take] at hplace
          rw [List.getElem?_take_of_lt (by omega), List.getElem?_drop] at h
          refine ⟨?_, by omega⟩
          rw [Nat.add_comm g.start]
          exact h

/-- The runs before the one that supplies a byte were read to their end. -/
theorem exists_run_of_getElem? {runs : List Run} {position : Nat} {byte : UInt8}
    (h : (runsContent disk contents g runs)[position]? = some byte) :
    ∃ before r after place, runs = before ++ r :: after ∧
      position = clusters before * g.clusterSize + place ∧
      (runContent disk contents g r)[place]? = some byte := by
  induction runs generalizing position with
  | nil => simp [runsContent] at h
  | cons r rest ih =>
      rw [runsContent, List.getElem?_append] at h
      split at h
      · exact ⟨[], r, rest, position, rfl, by simp, h⟩
      rename_i hpast
      split at h
      · rename_i hwhole
        simp only [isWhole, Bool.and_eq_true, beq_iff_eq] at hwhole
        obtain ⟨before, r', after, place, rfl, hposition, hbyte⟩ := ih h
        refine ⟨r :: before, r', after, place, rfl, ?_, hbyte⟩
        rw [clusters_cons, Nat.add_mul]
        omega
      · simp at h

theorem lt_of_getElem?_runContent {r : Run} {place : Nat} {byte : UInt8}
    (h : (runContent disk contents g r)[place]? = some byte) :
    place < r.length.toNat * g.clusterSize := by
  have hlt := (List.getElem?_eq_some_iff.mp h).1
  have hle := length_runContent_le disk contents g r
  omega

/-- The cluster of a position, and its place there, counted from the run that supplies it. -/
theorem position_in_run (before place : Nat) {c : Nat} (hc : 0 < c) :
    (before * c + place) / c = before + place / c ∧ (before * c + place) % c = place % c := by
  constructor
  · rw [Nat.add_comm, Nat.add_mul_div_right _ _ hc, Nat.add_comm]
  · rw [Nat.add_comm, Nat.add_mul_mod_self_right]

/-- The run that supplies a byte covers the cluster of its position.  The byte is zero if that run
is sparse, and else the one on the disk at the same place of the cluster that the run has there. -/
theorem exists_run_covering (hc : 0 < g.clusterSize) {runs : List Run} {position : Nat}
    {byte : UInt8} (h : (runsContent disk contents g runs)[position]? = some byte) :
    ∃ before r after, runs = before ++ r :: after ∧
      clusters before ≤ position / g.clusterSize ∧
      position / g.clusterSize < clusters before + r.length.toNat ∧
      (r.lcn = none → byte = 0) ∧
      ∀ lcn, r.lcn = some lcn → ∃ address,
        address = g.start + (lcn.toNat + (position / g.clusterSize - clusters before)) *
          g.clusterSize + position % g.clusterSize ∧
        contents[address]? = some byte ∧ address < disk.size := by
  obtain ⟨before, r, after, place, hruns, rfl, hbyte⟩ := exists_run_of_getElem? h
  obtain ⟨hcluster, hplace⟩ := position_in_run (clusters before) place hc
  obtain ⟨hsparse, hstored⟩ := getElem?_runContent hbyte
  have hlt : place / g.clusterSize < r.length.toNat :=
    (Nat.div_lt_iff_lt_mul hc).mpr (lt_of_getElem?_runContent hbyte)
  refine ⟨before, r, after, hruns, ?_, ?_, hsparse, fun lcn hlcn => ⟨_, ?_, hstored lcn hlcn⟩⟩
  · rw [hcluster]
    exact Nat.le_add_right _ _
  · rw [hcluster]
    exact Nat.add_lt_add_left hlt _
  · have hsum := Nat.div_add_mod' place g.clusterSize
    rw [hcluster, hplace, Nat.add_sub_cancel_left, Nat.add_mul]
    omega

/-! ## Nothing is missing without a warning -/

/-- Some of the warnings tell of a read past the end of the disk. -/
def ToldOutOfRange (warnings : List Warning) : Prop :=
  ∃ record offset message, Warning.outOfRange record offset message ∈ warnings

/-- A run that is not read to its end leaves a warning about a read past the end of the disk. -/
theorem readOne_told {record : UInt64} {limit : Nat} {r : Run} {ended : RunEnd}
    (h : (readOne disk g record limit r).result = .ok ended) (hstop : ended.goOn = false) :
    ToldOutOfRange (readOne disk g record limit r).warnings := by
  simp only [readOne] at h ⊢
  cases hlcn : r.lcn with
  | none =>
      simp only [hlcn] at h
      cases h
      cases hstop
  | some lcn =>
      simp only [hlcn] at h ⊢
      cases hstart : firstByte? disk g lcn.toNat with
      | none =>
          obtain ⟨offset, message, heq⟩ :=
            readRun_of_outside hstart record (runBytes g limit r)
          rw [heq]
          exact ⟨record, _, message, List.mem_singleton.mpr rfl⟩
      | some start =>
          rw [readRun_of_inside hstart] at h ⊢
          obtain ⟨produced, hproduced, hend⟩ := Trace.andThen_result_eq_ok_iff.mp h
          rw [Trace.warnings_andThen_of_ok hproduced]
          split at hend
          · rename_i hshort
            rw [if_pos hshort]
            exact ⟨record, _, _, List.mem_append_right _ (List.mem_singleton.mpr rfl)⟩
          · cases hend
            cases hstop

/-- A run after which the next one is read came whole, or as far as the limit lets it. -/
theorem runBytes_le_of_goOn {record : UInt64} {limit : Nat} {r : Run} {ended : RunEnd}
    (h : (readOne disk g record limit r).result = .ok ended) (hgoOn : ended.goOn = true) :
    runBytes g limit r ≤ ended.produced := by
  simp only [readOne] at h
  cases hlcn : r.lcn with
  | none =>
      simp only [hlcn] at h
      cases h
      exact Nat.le_refl _
  | some lcn =>
      simp only [hlcn] at h
      cases hstart : firstByte? disk g lcn.toNat with
      | none =>
          obtain ⟨offset, message, heq⟩ :=
            readRun_of_outside hstart record (runBytes g limit r)
          rw [heq] at h
          cases h
          cases hgoOn
      | some start =>
          rw [readRun_of_inside hstart] at h
          obtain ⟨produced, -, hend⟩ := Trace.andThen_result_eq_ok_iff.mp h
          split at hend
          · cases hend
            cases hgoOn
          · rename_i hwhole
            cases hend
            exact Nat.not_lt.mp hwhole

/-- Whatever the disk answers, either all that the runs and the limit allow is read, or a warning
tells of the run that was not read to its end. -/
theorem min_le_or_told {record : UInt64} {limit n : Nat} (hlimit : limit ≤ maxWord)
    {runs : List Run} (h : (readRuns disk g record limit runs).result = .ok n) :
    min limit (g.clusterSize * clusters runs) ≤ n ∨
      ToldOutOfRange (readRuns disk g record limit runs).warnings := by
  induction runs generalizing limit n with
  | nil => exact Or.inl (by simp)
  | cons r rest ih =>
      rw [readRuns] at h ⊢
      by_cases hzero : limit = 0
      · exact Or.inl (by simp [hzero])
      rw [if_neg hzero] at h ⊢
      obtain ⟨ended, hended, hrest⟩ := Trace.andThen_result_eq_ok_iff.mp h
      rw [Trace.warnings_andThen_of_ok hended]
      cases hgoOn : ended.goOn with
      | false =>
          obtain ⟨record', offset, message, htold⟩ := readOne_told hended hgoOn
          exact Or.inr ⟨record', offset, message, List.mem_append_left _ htold⟩
      | true =>
          rw [hgoOn, if_pos rfl] at hrest
          rw [if_pos rfl, Trace.warnings_map]
          obtain ⟨m, hm, rfl⟩ := Trace.map_result_eq_ok_iff.mp hrest
          have hproduced := runBytes_le_of_goOn hended hgoOn
          rw [runBytes_eq hlimit] at hproduced
          rcases ih (by omega) hm with hmin | ⟨record', offset, message, htold⟩
          · left
            rw [clusters_cons, Nat.mul_add, Nat.mul_comm _ r.length.toNat]
            omega
          · exact Or.inr ⟨record', offset, message, List.mem_append_right _ htold⟩

theorem length_runsContent_le (disk : Disk) (contents : Bytes) (g : Geometry) (runs : List Run) :
    (runsContent disk contents g runs).length ≤ g.clusterSize * clusters runs := by
  induction runs with
  | nil => exact Nat.zero_le _
  | cons r rest ih =>
      have hfirst := length_runContent_le disk contents g r
      rw [runsContent, List.length_append, clusters_cons, Nat.mul_add, Nat.mul_comm _ r.length.toNat]
      split
      · omega
      · rw [List.length_nil]
        omega

/-- Either the runs fill the limit or all of their clusters are read, or a warning tells of a read past
the end of the disk. -/
theorem readRuns_eq_min_or_told (hholds : disk.Holds contents) {record : UInt64} {limit n : Nat}
    (hlimit : limit ≤ maxWord) {runs : List Run}
    (h : (readRuns disk g record limit runs).result = .ok n) :
    n = min limit (g.clusterSize * clusters runs) ∨
      ToldOutOfRange (readRuns disk g record limit runs).warnings := by
  refine (min_le_or_told hlimit h).imp_left fun hmin => Nat.le_antisymm ?_ hmin
  have hlength := length_runsContent_le disk contents g runs
  rw [(readRuns_returns hholds record hlimit runs n h).2, List.length_take]
  omega

/-! ## Reading agrees with looking up -/

theorem clusterSize_eq (h : g.sectorsPerCluster * g.bytesPerSector ≤ maxWord) :
    g.clusterSize = g.sectorsPerCluster * g.bytesPerSector := by
  rw [Geometry.clusterSize, Nat.min_eq_left h]

/-- The content of an attribute on the disk is what looking up its clusters says.  It is never
longer than the attribute declares; every byte of it lies in a run and is zero if the run is sparse,
and else the byte of the disk in the cluster that is found for it; and without a warning about a
read past the end it is as long as the runs and the declared length allow. -/
theorem ofAttribute_agrees_with_lookup (hholds : disk.Holds contents) (hsize : disk.size ≤ maxWord)
    {record : UInt64} {a : Attribute} {form : NonResidentForm}
    (hform : a.residency = .nonResident form)
    (hclusters : clusters form.runList.runs ≤ maxWord)
    (hpos : 0 < g.sectorsPerCluster * g.bytesPerSector)
    (hword : g.sectorsPerCluster * g.bytesPerSector ≤ maxWord) {out : Buffer}
    (hout : (ofAttribute disk g record a).result = .ok out) :
    out.size ≤ form.actualLength.toNat ∧
    (∀ p < out.size, ∃ before r after, form.runList.runs = before ++ r :: after ∧
      clusters before ≤ p / (g.sectorsPerCluster * g.bytesPerSector) ∧
      p / (g.sectorsPerCluster * g.bytesPerSector) < clusters before + r.length.toNat ∧
      (r.isSparse = true → out.byte p = 0) ∧
      (r.isSparse = false → ∃ lcn,
        form.runList.lcnForVcn (p / (g.sectorsPerCluster * g.bytesPerSector)) = some lcn ∧
        contents[g.start + lcn * (g.sectorsPerCluster * g.bytesPerSector) +
          p % (g.sectorsPerCluster * g.bytesPerSector)]? = some (out.byte p))) ∧
    (¬ ToldOutOfRange (ofAttribute disk g record a).warnings →
      out.size = min form.actualLength.toNat
        (g.sectorsPerCluster * g.bytesPerSector * clusters form.runList.runs)) := by
  rw [← clusterSize_eq hword] at hpos ⊢
  obtain ⟨⟨n, hn⟩, hbytes⟩ := Trace.collect_result_eq_ok_iff.mp hout
  have hlimit : form.actualLength.toNat ≤ maxWord :=
    Nat.le_of_lt_succ form.actualLength.toNat_lt
  have hwalk : walk disk g record a.contentSize.toNat a =
      readRuns disk g record form.actualLength.toNat form.runList.runs := by
    simp only [walk, Attribute.contentSize, hform]
  rw [hwalk] at hn hbytes
  obtain ⟨hcontent, hcount⟩ := readRuns_returns hholds record hlimit form.runList.runs n hn
  rw [hcontent] at hbytes
  have hsizeOut : out.size = n := by
    rw [← Buffer.length_toList, hbytes, hcount]
  refine ⟨?_, fun p hp => ?_, fun htold => ?_⟩
  · rw [hsizeOut, hcount, List.length_take]
    exact Nat.min_le_left _ _
  · have hbyte : (runsContent disk contents g form.runList.runs)[p]? = some (out.byte p) := by
      have hget := Buffer.getElem?_toList hp
      rw [hbytes, List.getElem?_take] at hget
      exact (Option.ite_none_right_eq_some.mp hget).2
    obtain ⟨before, r, after, hruns, hfrom, hto, hsparse, hstored⟩ :=
      exists_run_covering hpos hbyte
    refine ⟨before, r, after, hruns, hfrom, hto, fun h => hsparse (Option.isNone_iff_eq_none.mp h),
      fun h => ?_⟩
    obtain ⟨lcn, hlcn⟩ := Option.isSome_iff_exists.mp (Option.isNone_eq_false_iff.mp h)
    obtain ⟨address, haddress, hcontents, hlt⟩ := hstored lcn hlcn
    refine ⟨lcn.toNat + (p / g.clusterSize - clusters before), ?_, haddress ▸ hcontents⟩
    have hfound : lcn.toNat + (p / g.clusterSize - clusters before) ≤ maxWord := by
      have := Nat.le_mul_of_pos_right (lcn.toNat + (p / g.clusterSize - clusters before)) hpos
      omega
    have hbound : 0 + clusters before + r.length.toNat ≤ maxWord := by
      rw [hruns, RunList.clusters_append, clusters_cons] at hclusters
      omega
    rw [RunList.lcnForVcn, hruns, RunList.lcnFrom_append hbound (by omega) (by omega), hlcn,
      Option.bind_some, Nat.zero_add, if_pos hfound]
  · rw [hsizeOut]
    refine (readRuns_eq_min_or_told hholds hlimit hn).resolve_right fun h => htold ?_
    rw [ofAttribute, hwalk]
    exact h

/-- A sparse cluster, and a byte of a second one, from a disk that answers with one byte at a time. -/
theorem ofAttribute_agrees_with_lookup_halfSparse :
    (Disk.ofImage slowImage).Holds [0, 0, 1, 2, 3, 4] ∧ slowImage.size ≤ maxWord ∧
    halfSparseData.residency = .nonResident halfSparse ∧
    clusters halfSparse.runList.runs ≤ maxWord ∧
    ∃ out, (ofAttribute (.ofImage slowImage) ⟨0, 2, 1⟩ 0 halfSparseData).result = .ok out ∧
      out.size ≤ 3 ∧
      ∀ p < out.size, ∃ before r after, halfSparse.runList.runs = before ++ r :: after ∧
        (r.isSparse = true → out.byte p = 0) ∧
        (r.isSparse = false → ∃ lcn, halfSparse.runList.lcnForVcn (p / 2) = some lcn ∧
          [0, 0, 1, 2, 3, 4][lcn * 2 + p % 2]? = some (out.byte p)) := by
  have hclusters : clusters halfSparse.runList.runs ≤ maxWord := by decide
  obtain ⟨n, hn⟩ := walk_succeeds (g := ⟨0, 2, 1⟩) holds_slowImage
    (Disk.neverFails_ofImage slowImage rfl) 0 3 (a := halfSparseData)
    (fun hresident => Bool.noConfusion hresident)
  have hout : (ofAttribute (.ofImage slowImage) ⟨0, 2, 1⟩ 0 halfSparseData).result =
      .ok (.ofList (walk (.ofImage slowImage) ⟨0, 2, 1⟩ 0 3 halfSparseData).content) :=
    Trace.collect_result_eq_ok_iff.mpr ⟨⟨n, hn⟩, Buffer.toList_ofList _⟩
  obtain ⟨hlength, hplaced, -⟩ := ofAttribute_agrees_with_lookup holds_slowImage (by decide) rfl
    hclusters (by decide) (by decide) hout
  refine ⟨holds_slowImage, by decide, rfl, hclusters, _, hout, hlength, fun p hp => ?_⟩
  obtain ⟨before, r, after, hruns, -, -, hsparse, hstored⟩ := hplaced p hp
  refine ⟨before, r, after, hruns, hsparse, fun h => ?_⟩
  obtain ⟨lcn, hlcn, hbyte⟩ := hstored h
  rw [show 0 + lcn * (2 * 1) = lcn * 2 by omega] at hbyte
  exact ⟨lcn, hlcn, hbyte⟩

end Ntfs.Content
