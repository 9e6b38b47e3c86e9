import Ntfs.CommandLine.Job
import Ntfs.Disk

/-!
# Opening what a path leads to

A path leads to a file, to a folder, to a device, or to nothing.  A volume is a range of bytes of a
file, read through positions that are signed 64-bit numbers: past the end of the file there are no
bytes, and past the last position there is no reading.  A folder can be opened but not read.
-/

namespace Ntfs.CommandLine

/-- What a path leads to. -/
inductive Entry where
  | file (content : Buffer)
  /-- Something that can be opened but has no bytes to read. -/
  | folder
  /-- A device that gives zeros without end. -/
  | endless

def sectorSize : UInt64 := 512

/-- The largest position in a file: positions are signed 64-bit numbers. -/
def lastPosition : Nat := 0x7FFFFFFFFFFFFFFF

/-- The most bytes that are asked of a file at once. -/
def pieceSize : Nat := 8192

namespace Partition

/-- The bytes that the volume should have, even if the file ends earlier. -/
def byteSize (p : Partition) : Nat := (p.sectors * sectorSize).toNat

/-- Whether a read leaves the positions that a file can have.  What is asked of the file stays in the
volume, and goes out piece by piece; where the first piece fits and the file has no bytes, there is
no second one. -/
def overruns (p : Partition) (offset length : Nat) : Bool :=
  offset < p.byteSize &&
    lastPosition < p.offset.toNat + offset + min length (min pieceSize (p.byteSize - offset))

/-- The disk that a volume is: a range of bytes of a file.  A read past the end of the file returns
what there is, and one that leaves the positions of a file is refused. -/
def diskOfFile (p : Partition) (data : Buffer) : Disk :=
  let disk := Disk.ofImage {
    data := data.slice p.offset.toNat (p.offset.toNat + p.byteSize)
    size := p.byteSize
    failing := []
    failure := ""
    maxRead := none }
  { disk with
    readAt := fun offset length =>
      if p.overruns offset length then .error "no such position in the file"
      else disk.readAt offset length }

/-- The disk that a volume is.  In a folder every read is refused, and a device that never ends has
all bytes of the volume. -/
def disk (p : Partition) : Entry → Disk
  | .file data => p.diskOfFile data
  | .folder => { size := p.byteSize, readAt := fun _ _ => .error "is a folder" }
  | .endless => {
      size := p.byteSize
      readAt := fun offset length =>
        .ok (.ofList (List.replicate (min length (p.byteSize - offset)) 0)) }

/-- What the path of the volume leads to as a disk, if it can be opened as one. -/
def disk? (p : Partition) (entry : Option Entry) : Except String Disk :=
  if p.format ≠ "raw" ∧ p.format ≠ "auto" then .error ("unknown format '" ++ p.format ++ "'")
  else
    match entry with
    | some entry => .ok (p.disk entry)
    | none => .error ("cannot read '" ++ p.path ++ "'")

end Partition

end Ntfs.CommandLine
