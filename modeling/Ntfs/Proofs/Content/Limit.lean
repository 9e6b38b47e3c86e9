import Ntfs.Proofs.Content.Count
import Ntfs.Proofs.Content.Placement
import Ntfs.Proofs.Table.Opening
import Ntfs.Proofs.Table.Trail

/-!
# The size of a file and the length of its content

A table tells the size of a file from the first unnamed `$DATA` attribute of each record of its chain;
reading its content is limited by all of them.  Both come to the same attribute, and no more bytes are
read than the size says, if the first record that holds the start of the content holds nothing unnamed
in front of it (`logicalSize?_eq_limit`).
-/

namespace Ntfs

/-- The disk never answers with more bytes than it is asked for. -/
def Disk.NeverExceeds (disk : Disk) : Prop :=
  ∀ {offset length : Nat} {answer : Buffer},
    disk.readAt offset length = .ok answer → answer.size ≤ length

theorem Disk.Holds.neverExceeds {disk : Disk} {contents : Bytes} (h : disk.Holds contents) :
    disk.NeverExceeds := by
  intro offset length answer hanswer
  rw [← Buffer.length_toList]
  exact Nat.le_trans (h.answer_prefix hanswer).length_le (List.length_take_le _ _)

namespace Trace

variable {α β : Type}

/-- Work that comes to an end has a result that counts no more than a limit. -/
def AtMost (x : Trace α) (count : α → Nat) (limit : Nat) : Prop :=
  ∀ a, x.result = .ok a → count a ≤ limit

theorem AtMost.andThen {x : Trace α} {f : α → Trace β} {count : β → Nat} {limit : Nat}
    (h : ∀ a, x.result = .ok a → (f a).AtMost count limit) : (x.andThen f).AtMost count limit := by
  intro b hb
  obtain ⟨a, ha, hb⟩ := andThen_result_eq_ok_iff.mp hb
  exact h a ha b hb

theorem AtMost.map {x : Trace α} {f : α → β} {count : β → Nat} {limit : Nat}
    (h : x.AtMost (fun a => count (f a)) limit) : (x.map f).AtMost count limit := by
  intro b hb
  obtain ⟨a, ha, rfl⟩ := map_result_eq_ok_iff.mp hb
  exact h a ha

/-- What is left of the limit after some bytes bounds those that come after them. -/
theorem AtMost.add {x : Trace Nat} {came limit : Nat} (hcame : came ≤ limit)
    (h : x.AtMost id (limit - came)) : (x.map (came + ·)).AtMost id limit := by
  refine AtMost.map fun n hn => ?_
  have hrest : n ≤ limit - came := h n hn
  show came + n ≤ limit
  omega

theorem atMost_done {a : α} {count : α → Nat} {limit : Nat} (h : count a ≤ limit) :
    (done a).AtMost count limit := by
  intro b hb
  cases hb
  exact h

theorem atMost_fail (e : Failure) (count : α → Nat) (limit : Nat) : (fail e).AtMost count limit := by
  intro a ha
  cases ha

end Trace

namespace Content

open Trace

variable {disk : Disk} {g : Geometry}

/-! ## No reader goes over its limit -/

/-- From a disk that never exceeds a request, no more comes of a span than is wanted. -/
theorem readSpan_atMost (hexceeds : disk.NeverExceeds) (offset wanted : Nat) :
    (readSpan disk offset wanted).AtMost id wanted := by
  by_cases h : wanted = 0
  · rw [h, readSpan_zero]
    exact atMost_done (Nat.le_refl _)
  · rw [readSpan_of_pos disk offset (Nat.pos_of_ne_zero h)]
    refine AtMost.andThen fun answer hanswer => ?_
    have hle : answer.size ≤ wanted :=
      Nat.le_trans (hexceeds (read_result_eq_ok_iff.mp hanswer)) (Nat.min_le_left _ _)
    split
    · exact atMost_done (Nat.zero_le _)
    · refine AtMost.andThen fun _ _ => AtMost.add hle ?_
      exact readSpan_atMost hexceeds (offset + answer.size) (wanted - answer.size)
termination_by wanted

theorem readRun_atMost (hexceeds : disk.NeverExceeds) (record : UInt64) (wanted lcn : Nat) :
    (readRun disk g record wanted lcn).AtMost RunEnd.produced wanted := by
  have hstop {offset : Nat} {message : String} {produced : Nat} (hle : produced ≤ wanted) :
      (stopWith record offset message produced).AtMost RunEnd.produced wanted :=
    AtMost.map fun _ _ => hle
  obtain ⟨offset, message, hnone⟩ | ⟨start, -, -, hread⟩ := readRun_cases disk g record wanted lcn
  · rw [hnone]
    exact hstop (Nat.zero_le _)
  · rw [hread]
    refine AtMost.andThen fun produced hproduced => ?_
    have hle : produced ≤ wanted := Nat.le_trans
      (readSpan_atMost hexceeds start _ produced hproduced) (Nat.min_le_left _ _)
    split
    · exact hstop hle
    · exact atMost_done hle

theorem readOne_atMost (hexceeds : disk.NeverExceeds) (record : UInt64) (limit : Nat) (r : Run) :
    (readOne disk g record limit r).AtMost RunEnd.produced limit := by
  have hwanted : runBytes g limit r ≤ limit := Nat.min_le_right _ _
  unfold readOne
  cases r.lcn with
  | none => exact AtMost.map fun _ _ => hwanted
  | some lcn =>
      exact fun ended h => Nat.le_trans (readRun_atMost hexceeds record _ _ ended h) hwanted

/-- Each run takes no more than what those before it have left of the limit. -/
theorem readRuns_atMost (hexceeds : disk.NeverExceeds) (record : UInt64) (limit : Nat)
    (runs : List Run) : (readRuns disk g record limit runs).AtMost id limit := by
  induction runs generalizing limit with
  | nil => exact atMost_done (Nat.zero_le _)
  | cons r rest ih =>
      rw [readRuns]
      split
      · exact atMost_done (Nat.zero_le _)
      · refine AtMost.andThen fun ended hended => ?_
        have hle : ended.produced ≤ limit := readOne_atMost hexceeds record limit r ended hended
        split
        · exact AtMost.add hle (ih _)
        · exact atMost_done hle

theorem walk_atMost (hexceeds : disk.NeverExceeds) (record : UInt64) (limit : Nat) (a : Attribute) :
    (walk disk g record limit a).AtMost id limit := by
  unfold walk
  cases a.residency with
  | resident form =>
      cases residentContent? a.body with
      | none => exact atMost_fail _ _ _
      | some content =>
          refine AtMost.map fun _ _ => ?_
          show (content.slice 0 limit).size ≤ limit
          rw [← Buffer.length_toList, Buffer.toList_slice]
          exact List.length_take_le _ _
  | nonResident form => exact readRuns_atMost hexceeds record limit _

/-- Each part of a stream takes no more than what those before it have left of the limit. -/
theorem walkParts_atMost (hexceeds : disk.NeverExceeds) (limit : Nat)
    (found : List (UInt64 × Attribute)) : (walkParts disk g limit found).AtMost id limit := by
  induction found generalizing limit with
  | nil => exact atMost_done (Nat.zero_le _)
  | cons part rest ih =>
      rw [walkParts]
      split
      · exact atMost_done (Nat.zero_le _)
      · exact AtMost.andThen fun produced hproduced =>
          AtMost.add (walk_atMost hexceeds part.1 limit part.2 produced hproduced) (ih _)

/-- A stream is never longer than its limit, on any disk. -/
theorem size_le_limit (hexceeds : disk.NeverExceeds) {t : Table} {id : Nat} {key : StreamKey}
    {out : Buffer} (h : (ofStream disk g t id key).result = .ok out) :
    out.size ≤ limit (parts t id key) := by
  obtain ⟨⟨n, hn⟩, hout⟩ := collect_result_eq_ok_iff.mp h
  rw [← Buffer.length_toList, hout, walkStream_counts disk g t id key n hn]
  unfold walkStream at hn
  split at hn
  · split at hn
    · cases hn
    · exact walkParts_atMost hexceeds _ _ n hn
  · cases hn

end Content

/-! ## Size and limit -/

namespace Table

open Content

/-- The content of a file is cut where the first record that opens it says. -/
theorem limit_of_opens {t : Table} {id c : Nat} {before after : List Nat} {a : Attribute}
    (hchain : t.chain id = before ++ c :: after) (ha : t.Opens c a)
    (hbefore : ∀ b ∈ before, ¬ t.HoldsStart b) :
    limit (parts t id .content) = a.contentSize.toNat := by
  obtain ⟨r, front, back, hr, hattributes, hfront, hstarts⟩ := ha
  obtain ⟨hselects, hfirst⟩ := Attribute.startsContent_iff.mp hstarts
  have hmatching : matching t id .content =
      ((before.filterMap t.get?).flatMap fun r => r.attributes.filter StreamKey.content.selects) ++
        a :: (back.filter StreamKey.content.selects ++
          (after.filterMap t.get?).flatMap fun r =>
            r.attributes.filter StreamKey.content.selects) := by
    have hnone : front.filter StreamKey.content.selects = [] := List.filter_eq_nil_iff.mpr
      fun b hb hcontent => hfront b hb (StreamKey.selects_content.mp hcontent)
    rw [matching, chainRecords, hchain, List.filterMap_append, List.filterMap_cons_some hr,
      List.flatMap_append, List.flatMap_cons, hattributes, List.filter_append, hnone,
      List.nil_append, List.filter_cons_of_pos hselects, List.cons_append]
  have hearlier : ((before.filterMap t.get?).flatMap fun r =>
      r.attributes.filter StreamKey.content.selects).find? Attribute.isFirstExtent = none := by
    rw [List.find?_eq_none]
    intro b hb hopen
    obtain ⟨rb, hrb, hb⟩ := List.mem_flatMap.mp hb
    obtain ⟨d, hd, hrb⟩ := List.mem_filterMap.mp hrb
    obtain ⟨hmem, hcontent⟩ := List.mem_filter.mp hb
    exact hbefore d hd ⟨rb, hrb, b, hmem, Attribute.startsContent_iff.mpr ⟨hcontent, hopen⟩⟩
  rw [limit_parts, declaredLength, hmatching, List.find?_append, hearlier, Option.none_or,
    List.find?_cons_of_pos hfirst]
  rfl

/-- If the first record of a chain that holds the start of the content holds no other unnamed `$DATA`
attribute in front of it, the size of the file is the limit that reading its content applies, so no more
bytes are read than the size says. -/
theorem logicalSize?_eq_limit (t : Table) (id : Nat) (hstart : ∃ c ∈ t.chain id, t.HoldsStart c)
    (hopens : ∀ before c after, t.chain id = before ++ c :: after → t.HoldsStart c →
      (∀ b ∈ before, ¬ t.HoldsStart b) → ∃ a, t.Opens c a) :
    ∃ size, t.logicalSize? id = some size ∧ limit (parts t id .content) = size.toNat ∧
      ∀ disk g out, disk.NeverExceeds → (ofStream disk g t id .content).result = .ok out →
        out.size ≤ size.toNat := by
  obtain ⟨before, c, after, hchain, hholds, hbefore⟩ := exists_first_holdsStart hstart
  obtain ⟨a, ha⟩ := hopens before c after hchain hholds hbefore
  have hlimit := limit_of_opens hchain ha hbefore
  refine ⟨a.contentSize, logicalSize?_of_opens hchain ha fun b hb a' ha' => ?_, hlimit, ?_⟩
  · exact hbefore b hb ha'.holdsStart
  · intro disk g out hexceeds hout
    rw [← hlimit]
    exact size_le_limit hexceeds hout

theorem holdsStart_splitTable {swapped : Bool} {c : Nat} :
    (splitTable swapped).HoldsStart c ↔ c = 1 := by
  constructor
  · rintro ⟨r, hr, a, ha, hstarts⟩
    obtain ⟨hcontent, hfirst⟩ := Attribute.startsContent_iff.mp hstarts
    rcases c with _ | _ | _ | c
    · -- the attribute list is not content
      cases hr
      rw [List.mem_singleton.mp ha] at hcontent
      cases swapped <;> cases hcontent
    · rfl
    · -- the extent starts at the second cluster
      cases hr
      rw [List.mem_singleton.mp ha] at hfirst
      cases hfirst
    · cases hr
  · rintro rfl
    exact Opens.holdsStart (a := extentAt 0 2) (opens_iff.mpr ⟨by cases swapped <;> rfl, rfl⟩)

/-- The stream starts in the record that comes last in its chain. -/
theorem logicalSize?_eq_limit_splitTable :
    (∃ c ∈ (splitTable true).chain 0, (splitTable true).HoldsStart c) ∧
    (∀ before c after, (splitTable true).chain 0 = before ++ c :: after →
      (splitTable true).HoldsStart c → (∀ b ∈ before, ¬ (splitTable true).HoldsStart b) →
        ∃ a, (splitTable true).Opens c a) ∧
    (splitTable true).logicalSize? 0 = some 2 ∧
    limit (parts (splitTable true) 0 .content) = 2 ∧
    ∃ out, (ofStream (.ofBuffer (.ofList [0, 0xBB, 0xAA])) ⟨0, 1, 1⟩ (splitTable true) 0
      .content).result = .ok out ∧ out.size ≤ 2 := by
  have hstart : ∃ c ∈ (splitTable true).chain 0, (splitTable true).HoldsStart c := by
    refine ⟨1, ?_, holdsStart_splitTable.mpr rfl⟩
    rw [chain_splitTable]
    decide
  have hopens : ∀ before c after, (splitTable true).chain 0 = before ++ c :: after →
      (splitTable true).HoldsStart c → (∀ b ∈ before, ¬ (splitTable true).HoldsStart b) →
        ∃ a, (splitTable true).Opens c a := by
    intro before c after _ hholds _
    obtain rfl := holdsStart_splitTable.mp hholds
    exact ⟨extentAt 0 2, opens_iff.mpr ⟨rfl, rfl⟩⟩
  obtain ⟨size, hsize, hlimit, hbound⟩ := logicalSize?_eq_limit (splitTable true) 0 hstart hopens
  have hdeclared : limit (parts (splitTable true) 0 .content) = 2 := by
    rw [limit_parts, matching_splitTable]
    rfl
  obtain rfl : size = 2 := UInt64.toNat_inj.mp (hlimit.symm.trans hdeclared)
  have hresult := ofStream_splitTable true [0, 0xBB, 0xAA]
  exact ⟨hstart, hopens, hsize, hdeclared, _, hresult,
    hbound _ _ _ (Disk.holds_ofBuffer _).neverExceeds hresult⟩

/-! ## A second extent in front -/

/-- A record in which the second extent stands in front of the first one. -/
def reversedBytes : Bytes := recordBytes (extentBytes 1 1 ++ extentBytes 0 2)

def reversedTable : Table := ⟨#[recordOf 0 [extentAt 1 1, extentAt 0 2] none]⟩

theorem build_reversedBytes :
    (build ⟨none, none⟩ (Buffer.ofList reversedBytes)).result = .ok reversedTable := by
  have hparse : Record.parse 0 (Buffer.ofList reversedBytes) =
      recordOf 0 [extentAt 1 1, extentAt 0 2] none :=
    parse_recordBytes 0 (by decide +kernel)
  rw [build_result_of_record (by decide +kernel), hparse]
  exact congrArg Except.ok (by decide +kernel)

/-- The size of this file is not known though its content is read, and cut at two bytes. -/
theorem logicalSize?_ne_limit :
    (build ⟨none, none⟩ (Buffer.ofList reversedBytes)).result = .ok reversedTable ∧
    (∃ c ∈ reversedTable.chain 0, reversedTable.HoldsStart c) ∧
    reversedTable.logicalSize? 0 = none ∧
    limit (parts reversedTable 0 .content) = 2 ∧
    (ofStream (.ofBuffer (.ofList [0, 0xBB, 0xAA])) ⟨0, 1, 1⟩ reversedTable 0 .content).result =
      .ok (.ofList [0xBB, 0xAA]) := by
  have hchain : reversedTable.chain 0 = [0] := chain_of_link?_eq_none (by decide) rfl
  have hmatching : matching reversedTable 0 .content = [extentAt 1 1, extentAt 0 2] := by
    rw [matching, chainRecords, hchain]
    rfl
  refine ⟨build_reversedBytes, ?_, ?_, ?_, ?_⟩
  · rw [hchain]
    exact ⟨0, List.mem_singleton.mpr rfl, _, rfl, extentAt 0 2, by decide,
      Attribute.startsContent_iff.mpr ⟨rfl, rfl⟩⟩
  · rw [logicalSize?, firstExtent?, chainRecords, hchain]
    rfl
  · rw [limit_parts, hmatching]
    rfl
  · have hholds := Disk.holds_ofList [0, 0xBB, 0xAA]
    have hne : matching reversedTable 0 .content ≠ [] := by
      rw [hmatching]
      exact List.cons_ne_nil _ _
    have hsucceeds := walkStream_succeeds (g := ⟨0, 1, 1⟩) hholds (Disk.neverFails_ofBuffer _)
      (by decide) hne (by simp [hmatching, extentAt])
    rw [ofStream_result_of_succeeds hholds (by decide) hne hsucceeds, hmatching]
    exact congrArg (fun bytes => Except.ok (Buffer.ofList bytes)) (by decide +kernel)

end Table

end Ntfs
