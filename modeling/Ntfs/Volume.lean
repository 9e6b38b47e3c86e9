import Ntfs.Content.Stream
import Ntfs.Table.Build

/-!
# Volumes

A volume is a disk with a file system from some byte on.  Its boot sector says where the file table
starts; the first record of the table describes the table itself, and so leads to all others.
-/

namespace Ntfs

/-- An opened volume. -/
structure Volume where
  boot : BootSector
  disk : Disk
  geometry : Geometry

namespace Volume

/-- Open the volume that starts at a byte of the disk. -/
def openAt (disk : Disk) (start : Nat) : Trace Volume := do
  let sector ← disk.read start BootSector.size
  let boot ← Trace.ofExcept ((BootSector.decode sector.toList).mapError Failure.bootSector)
  let recordSize := boot.recordSize?.getD 0
  if recordSize = Record.size then return ⟨boot, disk, boot.geometry start⟩
  else Trace.fail (.recordSize recordSize)

def tableRecord (v : Volume) : Trace Record :=
  match v.geometry.clusterOffset? v.boot.tableCluster.toNat with
  | none => .fail (.bootSector (.tableCluster v.boot.tableCluster))
  | some offset => do
    let raw ← v.disk.read offset Record.size
    let record := Record.parse 0 raw
    if record.isValid then return record else Trace.fail (.noRecord offset)

def readTable (v : Volume) : Trace Buffer := do
  let record ← v.tableRecord
  Trace.warnAll record.warnings
  match record.stream? none with
  | none => Trace.fail (.missing 0 .tableContent)
  | some content => Content.ofAttribute v.disk v.geometry record.id content

/-- The file table, or the records of it whose number lies in a range. -/
def table (v : Volume) (range : Option (Nat × Nat)) : Trace Table := do
  let raw ← v.readTable
  Table.build { range, source := some (v.disk, v.geometry) } raw

def content (v : Volume) (t : Table) (id : Nat) (key : StreamKey) : Trace Buffer :=
  Content.ofStream v.disk v.geometry t id key

end Volume

end Ntfs
