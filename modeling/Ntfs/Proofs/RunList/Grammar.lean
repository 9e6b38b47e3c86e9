import Ntfs.Proofs.RunList.Stored

/-!
# What a stored run list decodes to

A stored list is the stored runs, one after the other, and a zero byte.  `front` reads one stored
run exactly when one stands there and its cluster lies in the volume (`front_encode`,
`exists_stored_of_front`).  From this, by induction along the list, decoding gives back what was
stored, and from any bytes it takes the longest list of stored runs that they start with.
-/

namespace Ntfs.RunList

open Bytes StoredRun

/-- The stored form of runs, without the end marker. -/
def encodeAll (stored : List StoredRun) : Bytes := stored.flatMap StoredRun.encode

/-- The runs that are stored, when the last cluster before them is `lcn`. -/
def runsFrom (lcn : Int) : List StoredRun → List Run
  | [] => []
  | s :: rest => s.toRun lcn :: runsFrom (lcn + s.delta) rest

def totalDelta : List StoredRun → Int
  | [] => 0
  | s :: rest => s.delta + totalDelta rest

/-- From cluster `lcn` on, no offset leads out of the clusters that a signed 64-bit number can
name. -/
def InVolume (lcn : Int) (stored : List StoredRun) : Prop :=
  ∀ first, first <+: stored →
    0 ≤ lcn + totalDelta first ∧ lcn + totalDelta first < 0x8000000000000000

@[simp]
theorem encodeAll_nil : encodeAll [] = [] := rfl

@[simp]
theorem encodeAll_cons (s : StoredRun) (rest : List StoredRun) :
    encodeAll (s :: rest) = s.encode ++ encodeAll rest := by
  rw [encodeAll, List.flatMap_cons, encodeAll]

theorem inVolume_nil_iff {lcn : Int} :
    InVolume lcn [] ↔ 0 ≤ lcn ∧ lcn < 0x8000000000000000 := by
  simp [InVolume, totalDelta]

theorem inVolume_cons_iff {lcn : Int} {s : StoredRun} {rest : List StoredRun} :
    InVolume lcn (s :: rest) ↔
      (0 ≤ lcn ∧ lcn < 0x8000000000000000) ∧ InVolume (lcn + s.delta) rest := by
  constructor
  · intro hall
    refine ⟨by simpa [totalDelta] using hall [] List.nil_prefix, fun first hfirst => ?_⟩
    simpa [totalDelta, Int.add_assoc] using hall (s :: first) (by simpa using hfirst)
  · rintro ⟨hlcn, hrest⟩ first hfirst
    cases first with
    | nil => simpa [totalDelta] using hlcn
    | cons s' first =>
        obtain ⟨rfl, htail⟩ := List.cons_prefix_cons.mp hfirst
        simpa [totalDelta, Int.add_assoc] using hrest first htail

theorem bounds_of_inVolume {lcn : Int} {stored : List StoredRun} (h : InVolume lcn stored) :
    0 ≤ lcn ∧ lcn < 0x8000000000000000 := by
  simpa [totalDelta] using h [] List.nil_prefix

/-! ## One stored run -/

theorem frontFields_append (lcn : Nat) (s : StoredRun) (after : Bytes)
    (hbounds : 0 ≤ lcn + s.delta ∧ lcn + s.delta < 0x8000000000000000) :
    frontFields lcn s.length.width s.offsetWidth
        (ofNatLE s.length.width s.length.value ++ (s.offsetBytes ++ after)) =
      .run (s.toRun lcn) (lcn + s.delta).toNat after := by
  have hvalue := toNatLE_ofNatLE s.length.value_lt
  have hpos := s.length.value_pos
  have htake : (ofNatLE s.length.width s.length.value ++ (s.offsetBytes ++ after)).take
      s.length.width = ofNatLE s.length.width s.length.value :=
    List.take_left' (length_ofNatLE _ _)
  have hdrop : (ofNatLE s.length.width s.length.value ++ (s.offsetBytes ++ after)).drop
      s.length.width = s.offsetBytes ++ after :=
    List.drop_left' (length_ofNatLE _ _)
  have hlong : shorterThan (ofNatLE s.length.width s.length.value ++ (s.offsetBytes ++ after))
      s.length.width = false := by
    rw [Bool.eq_false_iff, Ne, shorterThan_iff]
    simp
  simp only [frontFields, hlong, htake, hdrop, hvalue]
  rw [if_neg (by decide), if_neg (by omega)]
  obtain ⟨length, offset⟩ := s
  cases offset with
  | none => simp [offsetWidth, offsetBytes, toRun, delta]
  | some o =>
      have hwidth := o.width_pos
      have hoffsetTake : (ofIntLE o.width o.delta ++ after).take o.width =
          ofIntLE o.width o.delta := List.take_left' (length_ofIntLE _ _)
      have hoffsetDrop : (ofIntLE o.width o.delta ++ after).drop o.width = after :=
        List.drop_left' (length_ofIntLE _ _)
      have hoffsetLong : shorterThan (ofIntLE o.width o.delta ++ after) o.width = false := by
        rw [Bool.eq_false_iff, Ne, shorterThan_iff]
        simp
      simp only [delta, Option.map_some, Option.getD_some] at hbounds
      simp only [offsetWidth, offsetBytes, delta, toRun, Option.map_some, Option.getD_some,
        hoffsetLong, hoffsetTake, hoffsetDrop, toIntLE_ofIntLE o.lower o.upper]
      rw [if_neg (by omega), if_neg (by decide), if_pos hbounds]

/-- A stored run is read back from the front of a list, and leaves what stands behind it. -/
theorem front_encode (lcn : Nat) (s : StoredRun) (after : Bytes)
    (hbounds : 0 ≤ lcn + s.delta ∧ lcn + s.delta < 0x8000000000000000) :
    front lcn (s.encode ++ after) = .run (s.toRun lcn) (lcn + s.delta).toNat after := by
  have hcontrol := s.toNat_control
  have hlower := s.length.width_pos
  have hupper := s.length.width_le
  have hoffset := s.offsetWidth_le
  have hlengthSize : s.control.toNat % 16 = s.length.width := by omega
  have hoffsetSize : s.control.toNat / 16 = s.offsetWidth := by omega
  rw [encode, List.cons_append, List.append_assoc, front, if_neg s.control_ne_zero]
  simp only [hlengthSize, hoffsetSize]
  rw [if_neg (by omega), frontFields_append lcn s after hbounds]

def lengthFieldOf (width : Nat) (b : Bytes) (hpos : 0 < width) (hle : width ≤ 8)
    (hlong : width ≤ b.length) (hvalue : toNatLE (b.take width) ≠ 0) : LengthField where
  width
  value := toNatLE (b.take width)
  width_pos := hpos
  width_le := hle
  value_pos := Nat.pos_of_ne_zero hvalue
  value_lt := by simpa [hlong] using toNatLE_lt (b.take width)

def offsetFieldOf (width : Nat) (b : Bytes) (hpos : 0 < width) (hle : width ≤ 8)
    (hlong : width ≤ b.length) : OffsetField where
  width
  delta := toIntLE (b.take width)
  width_pos := hpos
  width_le := hle
  lower := by simpa [hlong] using (toIntLE_bounds (b.take width)).1
  upper := by simpa [hlong] using (toIntLE_bounds (b.take width)).2

theorem ofNatLE_take {width : Nat} {b : Bytes} (hlong : width ≤ b.length) :
    ofNatLE width (toNatLE (b.take width)) = b.take width := by
  have hfield := ofNatLE_toNatLE (b.take width)
  rwa [List.length_take, Nat.min_eq_left hlong] at hfield

theorem ofIntLE_take {width : Nat} {b : Bytes} (hlong : width ≤ b.length) :
    ofIntLE width (toIntLE (b.take width)) = b.take width := by
  have hfield := ofIntLE_toIntLE (b.take width)
  rwa [List.length_take, Nat.min_eq_left hlong] at hfield

/-- Fields that are read as a run are those of a stored one. -/
theorem exists_stored_of_frontFields {lcn lengthSize offsetSize next : Nat} {b after : Bytes}
    {r : Run} (hlcn : lcn < 0x8000000000000000) (hpos : 0 < lengthSize) (hle : lengthSize ≤ 8)
    (hoffset : offsetSize ≤ 8) (h : frontFields lcn lengthSize offsetSize b = .run r next after) :
    ∃ s : StoredRun, s.length.width = lengthSize ∧ s.offsetWidth = offsetSize ∧
      b = ofNatLE s.length.width s.length.value ++ (s.offsetBytes ++ after) ∧
      r = s.toRun lcn ∧ (next : Int) = lcn + s.delta ∧ next < 0x8000000000000000 := by
  simp only [frontFields] at h
  split at h
  · cases h
  rename_i hlong
  rw [shorterThan_iff, Nat.not_lt] at hlong
  split at h
  · cases h
  rename_i hvalue
  split at h
  · rename_i hsparse
    subst hsparse
    cases h
    refine ⟨⟨lengthFieldOf lengthSize b hpos hle hlong hvalue, none⟩, rfl, rfl, ?_, rfl, ?_, hlcn⟩
    · simp only [lengthFieldOf, offsetBytes, List.nil_append]
      rw [ofNatLE_take hlong, List.take_append_drop]
    · simp [delta]
  rename_i hnonempty
  split at h
  · cases h
  rename_i hrest
  rw [shorterThan_iff, Nat.not_lt] at hrest
  split at h
  · rename_i hbounds
    cases h
    refine ⟨⟨lengthFieldOf lengthSize b hpos hle hlong hvalue,
      some (offsetFieldOf offsetSize (b.drop lengthSize) (Nat.pos_of_ne_zero hnonempty) hoffset
        hrest)⟩, rfl, rfl, ?_, rfl, ?_, ?_⟩
    · simp only [lengthFieldOf, offsetFieldOf, offsetBytes]
      rw [ofNatLE_take hlong, ofIntLE_take hrest, List.take_append_drop, List.take_append_drop]
    · simp only [delta, offsetFieldOf, Option.map_some, Option.getD_some]
      omega
    · omega
  · cases h

/-- Whatever is read as a run is a stored run. -/
theorem exists_stored_of_front {lcn next : Nat} {b after : Bytes} {r : Run}
    (hlcn : lcn < 0x8000000000000000) (h : front lcn b = .run r next after) :
    ∃ s : StoredRun, b = s.encode ++ after ∧ r = s.toRun lcn ∧ (next : Int) = lcn + s.delta ∧
      next < 0x8000000000000000 := by
  cases b with
  | nil => cases h
  | cons control rest =>
      rw [front] at h
      split at h
      · cases h
      dsimp only at h
      split at h
      · cases h
      rename_i hsizes
      obtain ⟨s, hwidth, hoffsetWidth, hrest, hrun, hnext, hlt⟩ :=
        exists_stored_of_frontFields hlcn (by omega) (by omega) (by omega) h
      refine ⟨s, ?_, hrun, hnext, hlt⟩
      have hcontrol : control = s.control := by
        apply UInt8.toNat_inj.mp
        rw [toNat_control]
        omega
      rw [encode, List.cons_append, List.append_assoc, ← hrest, hcontrol]

/-! ## The whole list -/

theorem decodeFrom_of_run {lcn next : Nat} {b rest : Bytes} {r : Run}
    (h : front lcn b = .run r next rest) :
    decodeFrom lcn b = (r :: (decodeFrom next rest).1, (decodeFrom next rest).2) := by
  rw [decodeFrom]
  split <;> simp_all

theorem decodeFrom_of_finish {lcn : Nat} {b : Bytes} (h : front lcn b = .finish) :
    decodeFrom lcn b = ([], none) := by
  rw [decodeFrom]
  split <;> simp_all

theorem decodeFrom_of_stop {lcn : Nat} {b : Bytes} {reason : Stop}
    (h : front lcn b = .stop reason) :
    decodeFrom lcn b = ([], some reason) := by
  rw [decodeFrom]
  split <;> simp_all

theorem front_eq_finish_iff (lcn : Nat) {b : Bytes} : front lcn b = .finish ↔ b.head? = some 0 := by
  cases b with
  | nil => simp [front]
  | cons control rest =>
      simp only [front, List.head?_cons, Option.some.injEq]
      by_cases hzero : control = 0
      · simp [hzero]
      · rw [if_neg hzero]
        simp only [hzero, iff_false]
        split
        · simp
        · simp only [frontFields]
          repeat' split
          all_goals simp

/-- The runs that are stored at the start are decoded first, and the rest from where they lead. -/
theorem decodeFrom_append {lcn : Nat} {stored : List StoredRun} (after : Bytes)
    (h : InVolume lcn stored) :
    decodeFrom lcn (encodeAll stored ++ after) =
      (runsFrom lcn stored ++ (decodeFrom (lcn + totalDelta stored).toNat after).1,
        (decodeFrom (lcn + totalDelta stored).toNat after).2) := by
  induction stored generalizing lcn with
  | nil => simp [runsFrom, totalDelta]
  | cons s rest ih =>
      have hrest := (inVolume_cons_iff.mp h).2
      have hnext := bounds_of_inVolume hrest
      have hcast : ((lcn + s.delta).toNat : Int) = lcn + s.delta := Int.toNat_of_nonneg hnext.1
      have htotal : lcn + totalDelta (s :: rest) = lcn + s.delta + totalDelta rest := by
        simp [totalDelta, Int.add_assoc]
      rw [encodeAll_cons, List.append_assoc,
        decodeFrom_of_run (front_encode lcn s (encodeAll rest ++ after) hnext),
        ih (by rwa [hcast]), hcast, htotal, runsFrom, List.cons_append]

/-- Of the stored runs that some bytes start with, all are decoded, and decoding ends in front of
what is left. -/
structure Decodes (lcn : Nat) (b : Bytes) (stored : List StoredRun) (rest : Bytes) : Prop where
  inVolume : InVolume lcn stored
  bytes_eq : b = encodeAll stored ++ rest
  runs_eq : (decodeFrom lcn b).1 = runsFrom lcn stored
  longest : ∀ other, InVolume lcn other → encodeAll other <+: b → other <+: stored
  finished : (decodeFrom lcn b).2 = none ↔ rest.head? = some 0

/-- Where no run can be read, the list ends. -/
theorem decodes_nil {lcn : Nat} {b : Bytes} (hlcn : lcn < 0x8000000000000000)
    (hfront : ∀ r next rest, front lcn b ≠ .run r next rest) : Decodes lcn b [] b where
  inVolume := inVolume_nil_iff.mpr (by omega)
  bytes_eq := rfl
  runs_eq := by
    cases h : front lcn b with
    | run r next rest => exact absurd h (hfront r next rest)
    | finish => rw [decodeFrom_of_finish h, runsFrom]
    | stop reason => rw [decodeFrom_of_stop h, runsFrom]
  longest := by
    intro other hother hprefix
    cases other with
    | nil => exact List.prefix_rfl
    | cons s other =>
        obtain ⟨after, hafter⟩ := hprefix
        have hbounds := bounds_of_inVolume (inVolume_cons_iff.mp hother).2
        rw [encodeAll_cons, List.append_assoc] at hafter
        exact absurd (hafter ▸ front_encode lcn s (encodeAll other ++ after) hbounds)
          (hfront _ _ _)
  finished := by
    rw [← front_eq_finish_iff lcn]
    cases h : front lcn b with
    | run r next rest => exact absurd h (hfront r next rest)
    | finish => simp [decodeFrom_of_finish h]
    | stop reason => simp [decodeFrom_of_stop h]

/-- A stored run may come in front.  None is a part of another, so every list that the bytes start with
starts with this one. -/
theorem decodes_cons {lcn next : Nat} {s : StoredRun} {stored : List StoredRun} {b rest : Bytes}
    (hlcn : lcn < 0x8000000000000000) (hnext : (next : Int) = lcn + s.delta)
    (h : Decodes next b stored rest) : Decodes lcn (s.encode ++ b) (s :: stored) rest where
  inVolume := inVolume_cons_iff.mpr ⟨by omega, hnext ▸ h.inVolume⟩
  bytes_eq := by rw [encodeAll_cons, List.append_assoc, ← h.bytes_eq]
  runs_eq := by
    have hbounds := bounds_of_inVolume h.inVolume
    rw [decodeFrom_of_run (front_encode lcn s b (hnext ▸ hbounds)), ← hnext, Int.toNat_natCast,
      h.runs_eq, runsFrom, hnext]
  longest := by
    intro other hother hprefix
    cases other with
    | nil => exact List.nil_prefix
    | cons s' other =>
        obtain ⟨after, hafter⟩ := hprefix
        rw [encodeAll_cons, List.append_assoc] at hafter
        obtain ⟨rfl, htail⟩ := encode_append_inj hafter
        refine List.cons_prefix_cons.mpr ⟨rfl, h.longest other ?_ ⟨after, htail⟩⟩
        exact hnext ▸ (inVolume_cons_iff.mp hother).2
  finished := by
    have hbounds := bounds_of_inVolume h.inVolume
    rw [decodeFrom_of_run (front_encode lcn s b (hnext ▸ hbounds)), ← hnext, Int.toNat_natCast]
    exact h.finished

/-- All bytes start with a longest list of stored runs. -/
theorem exists_decodes (lcn : Nat) (b : Bytes) (hlcn : lcn < 0x8000000000000000) :
    ∃ stored rest, Decodes lcn b stored rest := by
  cases h : front lcn b with
  | run r next after =>
      obtain ⟨s, hb, -, hnext, hlt⟩ := exists_stored_of_front hlcn h
      have := length_rest_of_front h
      obtain ⟨stored, rest, hdecodes⟩ := exists_decodes next after hlt
      exact ⟨s :: stored, rest, hb ▸ decodes_cons hlcn hnext hdecodes⟩
  | finish => exact ⟨[], b, decodes_nil hlcn (by simp [h])⟩
  | stop reason => exact ⟨[], b, decodes_nil hlcn (by simp [h])⟩
termination_by b.length

theorem bounds_of_mem_runsFrom {lcn : Int} {stored : List StoredRun} (h : InVolume lcn stored)
    {r : Run} (hr : r ∈ runsFrom lcn stored) :
    1 ≤ r.length.toNat ∧ ∀ first, r.lcn = some first → first.toNat < 0x8000000000000000 := by
  induction stored generalizing lcn with
  | nil => simp [runsFrom] at hr
  | cons s rest ih =>
      have hrest := (inVolume_cons_iff.mp h).2
      rcases List.mem_cons.mp hr with rfl | hr
      · have hbounds := bounds_of_inVolume hrest
        refine ⟨by rw [toNat_length_toRun]; exact s.length.value_pos, fun first hfirst => ?_⟩
        cases hoffset : s.offset with
        | none => simp [toRun, hoffset] at hfirst
        | some o =>
            simp only [delta, hoffset, Option.map_some, Option.getD_some] at hbounds
            obtain ⟨first', hfirst', hnat⟩ := toNat_lcn_toRun hoffset hbounds.1 hbounds.2
            rw [hfirst'] at hfirst
            cases hfirst
            omega
      · exact ih hrest hr

/-- Decoding reads exactly the stored lists.  What was stored and closed with a zero byte comes back
run by run, whatever follows; and from any bytes come the runs of the longest stored list in front,
complete when a zero byte stands right after it. -/
theorem decode_stored_and_longest :
    (∀ (stored : List StoredRun) (tail : Bytes), InVolume 0 stored →
      decode (encodeAll stored ++ 0 :: tail) = ⟨runsFrom 0 stored, true, none⟩) ∧
    ∀ b : Bytes, ∃ (stored : List StoredRun) (rest : Bytes),
      InVolume 0 stored ∧ b = encodeAll stored ++ rest ∧ (decode b).runs = runsFrom 0 stored ∧
      (∀ other, InVolume 0 other → encodeAll other <+: b → other <+: stored) ∧
      (∀ r ∈ (decode b).runs,
        1 ≤ r.length.toNat ∧ ∀ first, r.lcn = some first → first.toNat ≤ 0x7FFFFFFFFFFFFFFF) ∧
      ((decode b).complete = true ↔ rest.head? = some 0) ∧
      ((decode b).complete = true ↔ (decode b).stopReason = none) := by
  constructor
  · intro stored tail h
    have hfinish : front (0 + totalDelta stored).toNat (0 :: tail) = .finish :=
      (front_eq_finish_iff _).mpr rfl
    have hdecode : decodeFrom 0 (encodeAll stored ++ 0 :: tail) = _ :=
      decodeFrom_append (0 :: tail) h
    rw [Int.natCast_zero, decodeFrom_of_finish hfinish] at hdecode
    simp [decode, hdecode]
  · intro b
    obtain ⟨stored, rest, h⟩ := exists_decodes 0 b (by decide)
    have hruns : (decode b).runs = runsFrom 0 stored := h.runs_eq
    refine ⟨stored, rest, h.inVolume, h.bytes_eq, hruns, h.longest, ?_, ?_, ?_⟩
    · intro r hr
      rw [hruns] at hr
      obtain ⟨hlength, hfirst⟩ := bounds_of_mem_runsFrom h.inVolume hr
      exact ⟨hlength, fun first heq => Nat.le_of_lt_succ (hfirst first heq)⟩
    · rw [← h.finished]
      simp [decode]
    · simp [decode]

/-- Ten clusters from cluster 1000 on in fields of two bytes, four sparse ones, and five clusters
that start a hundred before the first. -/
def threeExtents : List StoredRun := [
  ⟨⟨2, 10, by decide, by decide, by decide, by decide⟩,
    some ⟨2, 1000, by decide, by decide, by decide, by decide⟩⟩,
  ⟨⟨1, 4, by decide, by decide, by decide, by decide⟩, none⟩,
  ⟨⟨1, 5, by decide, by decide, by decide, by decide⟩,
    some ⟨1, -100, by decide, by decide, by decide, by decide⟩⟩]

theorem inVolume_threeExtents : InVolume 0 threeExtents := by
  simp [threeExtents, inVolume_cons_iff, inVolume_nil_iff, delta]

/-- Ten clusters, four sparse ones, and five that lie before the first. -/
theorem decode_threeExtents :
    InVolume 0 threeExtents ∧
    decode (encodeAll threeExtents ++ 0 :: [0x21]) =
      ⟨[⟨10, 1000, some 1000⟩, ⟨4, 0, none⟩, ⟨5, -100, some 900⟩], true, none⟩ ∧
    ∃ stored, (decode (encodeAll threeExtents)).runs = runsFrom 0 stored ∧
      threeExtents <+: stored := by
  refine ⟨inVolume_threeExtents,
    decode_stored_and_longest.1 threeExtents [0x21] inVolume_threeExtents, ?_⟩
  obtain ⟨stored, rest, -, -, hruns, hlongest, -⟩ :=
    decode_stored_and_longest.2 (encodeAll threeExtents)
  exact ⟨stored, hruns, hlongest threeExtents inVolume_threeExtents List.prefix_rfl⟩

end Ntfs.RunList
