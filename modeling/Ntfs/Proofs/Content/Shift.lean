import Ntfs.Proofs.Content.Reference
import Ntfs.Proofs.Trace.Alike

/-!
# The same clusters in another place

A reader of content reaches a disk through the addresses of clusters only.  When two volumes have
clusters of one size, and every cluster that one of them can read can be read on the other with the
same bytes and as far from the end of its disk (`SameClusters`), every reader goes the same way on
both: what it asks for and what it says in a warning depends on the place, what it hands over does
not.
-/

namespace Ntfs

namespace Disk

/-- From a byte of each on, two disks are the same. -/
structure SameFrom (d : Disk) (start : Nat) (d' : Disk) (start' : Nat) : Prop where
  rest_eq : d.size - start = d'.size - start'
  readAt_eq : ∀ further length,
    d.readAt (start + further) length = d'.readAt (start' + further) length

namespace SameFrom

variable {d d' : Disk} {start start' : Nat}

theorem advance (h : d.SameFrom start d' start') (count : Nat) :
    d.SameFrom (start + count) d' (start' + count) := by
  constructor
  · rw [← Nat.sub_sub, ← Nat.sub_sub, h.rest_eq]
  · intro further length
    rw [Nat.add_assoc, Nat.add_assoc, h.readAt_eq]

/-- The same bytes are answered to requests as far behind the two places. -/
theorem read_alike (h : d.SameFrom start d' start') (length : Nat) :
    Trace.Alike (d.read start length) (d'.read start' length) := by
  have hanswer : d.readAt start length = d'.readAt start' length := h.readAt_eq 0 length
  refine ⟨rfl, rfl, ?_⟩
  rw [Trace.outcome, Trace.outcome, read, read, hanswer]

end SameFrom

end Disk

namespace Content

open Trace

variable {d d' : Disk} {g g' : Geometry}

/-- Two volumes have clusters of one size, and a cluster that is inside one disk is inside the
other, with the same bytes. -/
structure SameClusters (d : Disk) (g : Geometry) (d' : Disk) (g' : Geometry) : Prop where
  clusterSize_eq : g.clusterSize = g'.clusterSize
  place : ∀ lcn, (firstByte? d g lcn = none ∧ firstByte? d' g' lcn = none) ∨
    ∃ start start', firstByte? d g lcn = some start ∧ firstByte? d' g' lcn = some start' ∧
      d.SameFrom start d' start'

/-- What ends a run may be told in other words. -/
theorem stopWith_alike (record : UInt64) (offset offset' : Nat) (message message' : String)
    (produced : Nat) :
    Alike (stopWith record offset message produced)
      (stopWith record offset' message' produced) := by
  rw [stopWith, stopWith]
  apply Alike.map
  exact Alike.warn rfl

/-- A span is read alike where the same bytes follow its start.  The rest of it starts as far behind that
on both disks. -/
theorem readSpan_alike {start start' : Nat} (h : d.SameFrom start d' start') (wanted : Nat) :
    Alike (readSpan d start wanted) (readSpan d' start' wanted) := by
  by_cases hwanted : wanted = 0
  · rw [hwanted, readSpan_zero, readSpan_zero]
    exact Alike.refl _
  rw [readSpan_of_pos d start (Nat.pos_of_ne_zero hwanted),
    readSpan_of_pos d' start' (Nat.pos_of_ne_zero hwanted)]
  refine (h.read_alike _).andThen fun answer => ?_
  by_cases hempty : answer.size = 0
  · rw [if_pos hempty, if_pos hempty]
    exact Alike.refl _
  · rw [if_neg hempty, if_neg hempty]
    have hrest := readSpan_alike (h.advance answer.size) (wanted - answer.size)
    exact (Alike.refl (emit answer)).andThen fun _ => hrest.map _
termination_by wanted

theorem readRun_alike (h : SameClusters d g d' g') (record : UInt64) (wanted lcn : Nat) :
    Alike (readRun d g record wanted lcn) (readRun d' g' record wanted lcn) := by
  rcases h.place lcn with ⟨hnone, hnone'⟩ | ⟨start, start', hstart, hstart', hsame⟩
  · obtain ⟨offset, message, hrun⟩ := readRun_of_outside hnone record wanted
    obtain ⟨offset', message', hrun'⟩ := readRun_of_outside hnone' record wanted
    rw [hrun, hrun']
    exact stopWith_alike record offset offset' message message' 0
  · rw [readRun_of_inside hstart, readRun_of_inside hstart', hsame.rest_eq]
    refine (readSpan_alike hsame _).andThen fun produced => ?_
    by_cases hshort : produced < wanted
    · rw [if_pos hshort, if_pos hshort]
      exact stopWith_alike _ _ _ _ _ _
    · rw [if_neg hshort, if_neg hshort]
      exact Alike.refl _

theorem readOne_alike (h : SameClusters d g d' g') (record : UInt64) (limit : Nat) (r : Run) :
    Alike (readOne d g record limit r) (readOne d' g' record limit r) := by
  have hbytes : runBytes g limit r = runBytes g' limit r := by
    rw [runBytes, runBytes, h.clusterSize_eq]
  rw [readOne, readOne, hbytes]
  cases r.lcn with
  | none => exact Alike.refl _
  | some lcn => exact readRun_alike h record _ _

/-- Runs are read alike where the clusters are the same, wherever these lie. -/
theorem readRuns_alike (h : SameClusters d g d' g') (record : UInt64) (limit : Nat)
    (runs : List Run) :
    Alike (readRuns d g record limit runs) (readRuns d' g' record limit runs) := by
  induction runs generalizing limit with
  | nil => exact Alike.refl _
  | cons r rest ih =>
      rw [readRuns, readRuns]
      by_cases hlimit : limit = 0
      · rw [if_pos hlimit, if_pos hlimit]
        exact Alike.refl _
      · rw [if_neg hlimit, if_neg hlimit]
        refine (readOne_alike h record limit r).andThen fun ended => ?_
        by_cases hgoOn : ended.goOn = true
        · rw [if_pos hgoOn, if_pos hgoOn]
          exact (ih (limit - ended.produced)).map _
        · rw [if_neg hgoOn, if_neg hgoOn]
          exact Alike.refl _

theorem walk_alike (h : SameClusters d g d' g') (record : UInt64) (limit : Nat) (a : Attribute) :
    Alike (walk d g record limit a) (walk d' g' record limit a) := by
  rw [walk, walk]
  cases a.residency with
  | resident form => exact Alike.refl _
  | nonResident form => exact readRuns_alike h record limit form.runList.runs

theorem ofAttribute_alike (h : SameClusters d g d' g') (record : UInt64) (a : Attribute) :
    Alike (ofAttribute d g record a) (ofAttribute d' g' record a) :=
  (walk_alike h record a.contentSize.toNat a).collect

theorem walkParts_alike (h : SameClusters d g d' g') (limit : Nat)
    (found : List (UInt64 × Attribute)) :
    Alike (walkParts d g limit found) (walkParts d' g' limit found) := by
  induction found generalizing limit with
  | nil => exact Alike.refl _
  | cons part rest ih =>
      rw [walkParts, walkParts]
      by_cases hlimit : limit = 0
      · rw [if_pos hlimit, if_pos hlimit]
        exact Alike.refl _
      · rw [if_neg hlimit, if_neg hlimit]
        exact (walk_alike h part.1 limit part.2).andThen fun produced => (ih _).map _

/-- The content of a stream depends on the clusters and not on where they lie. -/
theorem ofStream_alike (h : SameClusters d g d' g') (t : Table) (id : Nat) (key : StreamKey) :
    Alike (ofStream d g t id key) (ofStream d' g' t id key) := by
  apply Alike.collect
  rw [walkStream, walkStream]
  by_cases hid : id < t.size
  · rw [if_pos hid, if_pos hid]
    cases parts t id key with
    | nil => exact Alike.refl _
    | cons part rest => exact walkParts_alike h _ _
  · rw [if_neg hid, if_neg hid]
    exact Alike.refl _

end Content

end Ntfs
