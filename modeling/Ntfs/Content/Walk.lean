import Ntfs.Attribute.Basic
import Ntfs.Disk
import Ntfs.Trace.Iterate

/-!
# Reading the content of an attribute

Resident content is handed over as it stands.  Non-resident content is read run by run: zeros for
a sparse run, bytes of the disk for any other, never more than a limit says and never past the end
the disk reports.  A run that cannot be read whole ends the content with a warning; only a disk
that refuses to read ends it with a failure.
-/

namespace Ntfs.Content

/-- The most bytes asked for, or handed over as zeros, at a time. -/
def maxPiece : Nat := 0x100000

def zeroPiece : Buffer := .ofList (List.replicate maxPiece 0)

/-- Zeros, in pieces of bounded size: as many of the largest as fit, and the rest. -/
def zeros (length : Nat) : List Buffer :=
  List.replicate (length / maxPiece) zeroPiece ++
    if length % maxPiece = 0 then [] else [zeroPiece.slice 0 (length % maxPiece)]

theorem toList_zeroPiece : zeroPiece.toList = List.replicate maxPiece 0 :=
  Buffer.toList_ofList _

/-- The pieces come to as many zeros as are asked for. -/
theorem flatten_zeros (length : Nat) :
    ((zeros length).map Buffer.toList).flatten = List.replicate length 0 := by
  have h : length / maxPiece * maxPiece + length % maxPiece = length := by
    rw [Nat.mul_comm]; exact Nat.div_add_mod length maxPiece
  have hlt : length % maxPiece < maxPiece := Nat.mod_lt _ (by decide)
  unfold zeros
  split
  · rename_i h0
    rw [h0, Nat.add_zero] at h
    rw [List.append_nil, List.map_replicate, toList_zeroPiece, List.flatten_replicate_replicate, h]
  · rw [List.map_append, List.flatten_append, List.map_replicate, toList_zeroPiece,
      List.flatten_replicate_replicate, List.map_singleton, List.flatten_singleton,
      Buffer.toList_slice, toList_zeroPiece, List.drop_zero, List.take_replicate,
      Nat.min_eq_left (Nat.le_of_lt hlt), List.replicate_append_replicate, h]

/-- Where the reading of a span of bytes stands. -/
structure Span where
  offset : Nat
  wanted : Nat
  /-- How many bytes came so far. -/
  produced : Nat

namespace Span

/-- What is left after an answer. -/
def after (s : Span) (answer : Buffer) : Span :=
  ⟨s.offset + answer.size, s.wanted - answer.size, s.produced + answer.size⟩

@[simp]
theorem wanted_after (s : Span) (answer : Buffer) :
    (s.after answer).wanted = s.wanted - answer.size := rfl

/-- Ask for the next bytes of a span, and hand over the answer.  When nothing is left, or the answer
is empty, the reading ends with how many bytes came. -/
def step (disk : Disk) (s : Span) : Trace (Trace.StepEnd wanted s Nat) :=
  if _h : s.wanted = 0 then .done (.inl s.produced)
  else
    (disk.read s.offset (min s.wanted maxPiece)).andThen fun answer =>
      if _h : answer.size = 0 then .done (.inl s.produced)
      else
        (Trace.emit answer).map fun _ =>
          .inr ⟨s.after answer, by rw [wanted_after]; omega⟩

def read (disk : Disk) (s : Span) : Trace Nat := Trace.iterate wanted (step disk) s

theorem read_of_wanted_eq_zero (disk : Disk) {s : Span} (h : s.wanted = 0) :
    s.read disk = .done s.produced := by
  rw [read, Trace.iterate_eq, step, dif_pos h, Trace.done_andThen, Sum.elim_inl]

/-- Reading a span asks for one piece, and goes on behind the answer unless that is empty. -/
theorem read_of_wanted_pos (disk : Disk) {s : Span} (h : 0 < s.wanted) :
    s.read disk = (disk.read s.offset (min s.wanted maxPiece)).andThen fun answer =>
      if answer.size = 0 then .done s.produced
      else (Trace.emit answer).andThen fun _ => (s.after answer).read disk := by
  rw [read, Trace.iterate_eq, step, dif_neg (by omega), Trace.andThen_assoc]
  congr 1
  funext answer
  split
  · rfl
  · rw [← Trace.andThen_done_eq_map, Trace.andThen_assoc]
    rfl

/-- What came before a reading only adds to its count. -/
theorem read_eq_map (disk : Disk) (s : Span) :
    s.read disk = (read disk { s with produced := 0 }).map (s.produced + ·) := by
  by_cases h : s.wanted = 0
  · rw [read_of_wanted_eq_zero disk h, read_of_wanted_eq_zero disk (by exact h)]
    rfl
  · have hpos : 0 < s.wanted := Nat.pos_of_ne_zero h
    rw [read_of_wanted_pos disk hpos, read_of_wanted_pos disk (by exact hpos), Trace.andThen_map]
    congr 1
    funext answer
    split
    · rfl
    · rw [Trace.andThen_map]
      congr 1
      funext _
      rw [read_eq_map disk (s.after answer), read_eq_map disk (after _ answer), Trace.map_map]
      simp [after, Nat.add_assoc]
termination_by s.wanted

end Span

/-- Read `wanted` bytes from `offset` on.  Each answer of the disk is handed over as it comes; an
empty answer ends the reading.  Returns how many bytes came. -/
def readSpan (disk : Disk) (offset wanted : Nat) : Trace Nat :=
  Span.read disk ⟨offset, wanted, 0⟩

@[simp]
theorem readSpan_zero (disk : Disk) (offset : Nat) : readSpan disk offset 0 = .done 0 :=
  Span.read_of_wanted_eq_zero disk rfl

/-- A span is read by asking for its first piece, and then reading what the answer leaves of it. -/
theorem readSpan_of_pos (disk : Disk) (offset : Nat) {wanted : Nat} (h : 0 < wanted) :
    readSpan disk offset wanted =
      (disk.read offset (min wanted maxPiece)).andThen fun answer =>
        if answer.size = 0 then .done 0
        else (Trace.emit answer).andThen fun _ =>
          (readSpan disk (offset + answer.size) (wanted - answer.size)).map
            (answer.size + ·) := by
  rw [readSpan, Span.read_of_wanted_pos disk (by exact h)]
  congr 1
  funext answer
  split
  · rfl
  · congr 1
    funext _
    rw [Span.read_eq_map disk, readSpan]
    simp [Span.after]

def runBytes (g : Geometry) (limit : Nat) (r : Run) : Nat :=
  min (min (r.length.toNat * g.clusterSize) maxWord) limit

/-- How reading one run ended: how many bytes were handed over, and whether the next run is to
be read. -/
structure RunEnd where
  produced : Nat
  goOn : Bool
  deriving DecidableEq, Repr

def stopWith (record : UInt64) (offset : Nat) (message : String) (produced : Nat) : Trace RunEnd :=
  (Trace.warn (.outOfRange record (UInt64.ofNat offset) message)).map fun _ => ⟨produced, false⟩

/-- Read the first `wanted` bytes of the run that starts at cluster `lcn`. -/
def readRun (disk : Disk) (g : Geometry) (record : UInt64) (wanted lcn : Nat) : Trace RunEnd :=
  match g.clusterOffset? lcn with
  | none => stopWith record maxWord s!"cluster {lcn} overflows the address space" 0
  | some start =>
    if disk.size ≤ start then
      stopWith record start
        (s!"cluster {lcn} starts past the disk end 0x" ++ Hex.upper 1 disk.size) 0
    else
      (readSpan disk start (min wanted (disk.size - start))).andThen fun produced =>
        if produced < wanted then
          stopWith record (start + produced)
            s!"run of {wanted} bytes cut to {produced} at the disk end" produced
        else .done ⟨produced, true⟩

def readOne (disk : Disk) (g : Geometry) (record : UInt64) (limit : Nat) (r : Run) :
    Trace RunEnd :=
  let wanted := runBytes g limit r
  match r.lcn with
  | none => (Trace.emitAll (zeros wanted)).map fun _ => ⟨wanted, true⟩
  | some lcn => readRun disk g record wanted lcn.toNat

/-- Read runs one after the other, at most `limit` bytes of them.  Returns how many bytes were
handed over. -/
def readRuns (disk : Disk) (g : Geometry) (record : UInt64) : (limit : Nat) → List Run → Trace Nat
  | _, [] => .done 0
  | limit, r :: rest =>
    if limit = 0 then .done 0
    else
      (readOne disk g record limit r).andThen fun ended =>
        if ended.goOn then
          (readRuns disk g record (limit - ended.produced) rest).map (ended.produced + ·)
        else .done ended.produced

/-- The content of a resident attribute, where it can be read as bytes. -/
def residentContent? : AttributeBody → Option Buffer
  | .data bytes | .raw bytes => some (.ofList bytes)
  | .bitmap m => some m.bytes
  | _ => none

/-- Read the content of an attribute of a record, at most `limit` bytes of it.  Returns how many
bytes were handed over. -/
def walk (disk : Disk) (g : Geometry) (record : UInt64) (limit : Nat) (a : Attribute) :
    Trace Nat :=
  match a.residency with
  | .resident _ =>
    match residentContent? a.body with
    | none => .fail (.missing record.toNat (.residentContent a.kind))
    | some content =>
      let content := content.slice 0 limit
      (Trace.emit content).map fun _ => content.size
  | .nonResident form => readRuns disk g record limit form.runList.runs

/-- The content of one attribute, cut to the length it declares. -/
def ofAttribute (disk : Disk) (g : Geometry) (record : UInt64) (a : Attribute) : Trace Buffer :=
  (walk disk g record a.contentSize.toNat a).collect

end Ntfs.Content
