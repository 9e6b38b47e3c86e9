import Ntfs.Bytes
import Ntfs.Text.Hex

/-!
# Run lists

The content of an attribute that does not fit into its record lies in runs of clusters.  A run is
stored as a control byte, a length field and an offset field: the low half of the control byte
gives the size of the length, the high half that of the offset.  The offset is signed and counts
from the start of the last run that has one; a run without an offset is sparse and reads as zeros.
A zero control byte ends the list.

A list that stops in any other way keeps the runs before the fault and the reason for stopping.
-/

namespace Ntfs

/-- One extent of clusters. -/
structure Run where
  /-- Length in clusters, never zero in a decoded list. -/
  length : UInt64
  /-- The offset as stored; zero for a sparse run. -/
  delta : Int64
  /-- First cluster on the volume; none for a sparse run. -/
  lcn : Option UInt64
  deriving DecidableEq, Repr

namespace Run

/-- A sparse run holds zeros and takes no cluster. -/
def isSparse (r : Run) : Bool := r.lcn.isNone

end Run

/-- Runs in the order of the content they hold. -/
structure RunList where
  runs : List Run
  /-- Whether decoding reached the end marker. -/
  complete : Bool
  /-- Why decoding stopped before the end marker. -/
  stopReason : Option String
  deriving DecidableEq, Repr

namespace RunList

/-- The list without runs that was never decoded. -/
def empty : RunList := ⟨[], false, none⟩

/-- Why decoding stops before the end marker. -/
inductive Stop where
  | unterminated
  | controlByte (b : UInt8)
  | lengthCut
  | zeroLength
  | offsetCut
  | outsideVolume (delta : Int)
  deriving DecidableEq, Repr

def Stop.message : Stop → String
  | .unterminated => "run-list ended without terminator"
  | .controlByte b => "invalid control byte 0x" ++ Hex.upper 2 b.toNat
  | .lengthCut => "length field truncated"
  | .zeroLength => "zero-length run"
  | .offsetCut => "offset field truncated"
  | .outsideVolume delta => s!"LCN underflow with delta {delta}"

/-- The number stored in two's complement. -/
def toIntLE (field : Bytes) : Int :=
  let n : Int := Bytes.toNatLE field
  let bound : Int := Bytes.capacity field.length
  if 2 * n < bound then n else n - bound

/-- What stands at the front of a stored list.  `lcn` is the first cluster of the last run that
has one, zero at the start. -/
inductive Front where
  /-- A run, with the new last cluster and the bytes after the run. -/
  | run (r : Run) (lcn : Nat) (rest : Bytes)
  /-- The end marker. -/
  | finish
  /-- Nothing that can be decoded. -/
  | stop (reason : Stop)
  deriving DecidableEq, Repr

def frontFields (lcn lengthSize offsetSize : Nat) (rest : Bytes) : Front :=
  if Bytes.shorterThan rest lengthSize then .stop .lengthCut
  else
    let length := Bytes.toNatLE (rest.take lengthSize)
    let rest := rest.drop lengthSize
    if length = 0 then .stop .zeroLength
    else if offsetSize = 0 then
      .run { length := UInt64.ofNat length, delta := 0, lcn := none } lcn rest
    else if Bytes.shorterThan rest offsetSize then .stop .offsetCut
    else
      let delta := toIntLE (rest.take offsetSize)
      let next := lcn + delta
      if 0 ≤ next ∧ next < 0x8000000000000000 then
        .run { length := UInt64.ofNat length, delta := Int64.ofInt delta
               lcn := some (UInt64.ofNat next.toNat) } next.toNat (rest.drop offsetSize)
      else .stop (.outsideVolume delta)

def front (lcn : Nat) : Bytes → Front
  | [] => .stop .unterminated
  | control :: rest =>
    if control = 0 then .finish
    else
      let lengthSize := control.toNat % 16
      let offsetSize := control.toNat / 16
      if lengthSize = 0 ∨ 8 < lengthSize ∨ 8 < offsetSize then .stop (.controlByte control)
      else frontFields lcn lengthSize offsetSize rest

theorem length_rest_of_frontFields {lcn lengthSize offsetSize : Nat} {stored rest : Bytes}
    {r : Run} {next : Nat}
    (h : frontFields lcn lengthSize offsetSize stored = .run r next rest) :
    rest.length ≤ stored.length := by
  revert h
  simp only [frontFields]
  repeat' split
  all_goals simp
  all_goals intros; subst_vars; simp only [List.length_drop]; omega

theorem length_rest_of_front {lcn : Nat} {stored rest : Bytes} {r : Run} {next : Nat}
    (h : front lcn stored = .run r next rest) : rest.length < stored.length := by
  revert h
  unfold front
  split
  · simp
  · split
    · simp
    · dsimp only
      split
      · simp
      · intro h
        have := length_rest_of_frontFields h
        simp only [List.length_cons]
        omega

/-- The runs of a stored list, and why decoding stopped if it did not reach the end marker. -/
def decodeFrom (lcn : Nat) (stored : Bytes) : List Run × Option Stop :=
  match _h : front lcn stored with
  | .run r next rest =>
    let tail := decodeFrom next rest
    (r :: tail.1, tail.2)
  | .finish => ([], none)
  | .stop reason => ([], some reason)
termination_by stored.length
decreasing_by exact length_rest_of_front _h

def decode (stored : Bytes) : RunList :=
  let (runs, stop) := decodeFrom 0 stored
  { runs, complete := stop.isNone, stopReason := stop.map Stop.message }

/-- Clusters covered by all runs, capped at the largest 64-bit number. -/
def totalClusters (l : RunList) : Nat :=
  l.runs.foldl (fun total r => min (total + r.length.toNat) maxWord) 0

/-- The cluster that holds the content's cluster `vcn`, where the first run starts at `base`.
From the first run that ends past the 64-bit cluster space on, nothing is found. -/
def lcnFrom (base vcn : Nat) : List Run → Option Nat
  | [] => none
  | r :: rest =>
    let stop := base + r.length.toNat
    if maxWord < stop then none
    else if vcn < stop then
      r.lcn.bind fun lcn =>
        let found := lcn.toNat + (vcn - base)
        if found ≤ maxWord then some found else none
    else lcnFrom stop vcn rest

/-- The volume's cluster that holds the content's cluster `vcn`, if it is allocated. -/
def lcnForVcn (l : RunList) (vcn : Nat) : Option Nat := lcnFrom 0 vcn l.runs

end RunList

end Ntfs
