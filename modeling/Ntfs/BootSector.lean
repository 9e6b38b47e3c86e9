import Ntfs.Geometry
import Ntfs.Json.Basic
import Ntfs.Text.Grid
import Ntfs.Text.Hex
import Ntfs.Text.Utf8

/-!
# Boot sectors

The first sector of a volume tells the size of its sectors, clusters and file records and where
the file table starts.  Two fields are stored either as a count or, for large and small values, as
the exponent of a power of two.  A sector is accepted only if every size derived from it fits its
word.
-/

namespace Ntfs

/-- The fields of a boot sector. -/
structure BootSector where
  /-- The eight bytes of the OEM identifier as one stored word. -/
  oemId : UInt64
  bytesPerSector : UInt16
  /-- Sectors per cluster; above 0x80 the negated exponent of a power of two. -/
  sectorsByte : UInt8
  totalSectors : UInt64
  tableCluster : UInt64
  mirrorCluster : UInt64
  /-- Clusters per file record if positive, else the negated exponent of its size in bytes. -/
  recordByte : Int8
  indexByte : Int8
  serialNumber : UInt64
  endMarker : UInt16
  deriving DecidableEq, Repr

namespace BootSector

def size : Nat := 512

/-- The OEM identifier of this file system: `NTFS` and four blanks. -/
def ntfsId : UInt64 := 0x202020205346544E

/-- Why a sector is not accepted. -/
inductive Fault where
  | short (available : Nat)
  | foreign (oemId : UInt64)
  | zeroSize
  | clusterSize (sectorsByte : UInt8)
  | recordSize (recordByte : Int8)
  | tableCluster (cluster : UInt64)
  deriving DecidableEq, Repr

def oemText (oemId : UInt64) : String := Utf8.decode (Bytes.ofNatLE 8 oemId.toNat)

def Fault.message : Fault → String
  | short available => s!"need 512 bytes, got {available}"
  | foreign oemId => "OEM identifier is '" ++ oemText oemId ++ "'"
  | zeroSize => "zero sector or cluster size"
  | clusterSize sectorsByte =>
    "sectors per cluster 0x" ++ Hex.upper 2 sectorsByte.toNat ++ " is out of range"
  | recordSize recordByte => s!"clusters per file record {recordByte} is out of range"
  | tableCluster cluster => s!"$MFT cluster {cluster} is out of range"

/-- The sectors of a cluster; none if the exponent is too large. -/
def clusterSectors? (b : BootSector) : Option Nat :=
  let n := b.sectorsByte.toNat
  if n ≤ 0x80 then some n
  else if 256 - n < 64 then some (1 <<< (256 - n)) else none

/-- The bytes of a cluster; zero if they do not fit 64 bits. -/
def clusterSize (b : BootSector) : Nat :=
  match b.clusterSectors? with
  | some sectors =>
    let bytes := sectors * b.bytesPerSector.toNat
    if bytes ≤ maxWord then bytes else 0
  | none => 0

/-- The bytes of a file record; none if they do not fit 32 bits. -/
def recordSize? (b : BootSector) : Option Nat :=
  let n := b.recordByte.toInt
  if 0 < n then
    let bytes := b.clusterSize * n.toNat
    if b.clusterSize < UInt32.size ∧ bytes < UInt32.size then some bytes else none
  else if n.natAbs < 32 then some (1 <<< n.natAbs) else none

/-- The byte of the volume at which the file table starts; none if it does not fit 64 bits. -/
def tableAddress? (b : BootSector) : Option Nat :=
  let address := b.tableCluster.toNat * b.clusterSize
  if address ≤ maxWord then some address else none

/-- The geometry of the volume that starts at a byte of the disk. -/
def geometry (b : BootSector) (start : Nat) : Geometry where
  start
  sectorsPerCluster := b.clusterSectors?.getD 0
  bytesPerSector := b.bytesPerSector.toNat

def ofBytes (raw : Bytes) : BootSector where
  oemId := Bytes.u64 raw 0x03
  bytesPerSector := Bytes.u16 raw 0x0B
  sectorsByte := Bytes.u8 raw 0x0D
  totalSectors := Bytes.u64 raw 0x28
  tableCluster := Bytes.u64 raw 0x30
  mirrorCluster := Bytes.u64 raw 0x38
  recordByte := (Bytes.u8 raw 0x40).toInt8
  indexByte := (Bytes.u8 raw 0x44).toInt8
  serialNumber := Bytes.u64 raw 0x48
  endMarker := Bytes.u16 raw 0x1FE

def fault? (b : BootSector) : Option Fault :=
  if b.oemId ≠ ntfsId then some (.foreign b.oemId)
  else if b.bytesPerSector = 0 ∨ b.sectorsByte = 0 then some .zeroSize
  else if b.clusterSize = 0 then some (.clusterSize b.sectorsByte)
  else if b.recordSize?.isNone then some (.recordSize b.recordByte)
  else if b.tableAddress?.isNone then some (.tableCluster b.tableCluster)
  else none

def decode (raw : Bytes) : Except Fault BootSector :=
  if raw.length < size then .error (.short raw.length)
  else
    let b := ofBytes raw
    match b.fault? with
    | some fault => .error fault
    | none => .ok b

def toJson (b : BootSector) : Json :=
  .obj [("oem_id", Json.bytes (Bytes.ofNatLE 8 b.oemId.toNat)),
    ("bytes_per_sector", .nat b.bytesPerSector.toNat),
    ("sectors_per_cluster", .nat b.sectorsByte.toNat),
    ("total_sectors", .nat b.totalSectors.toNat), ("mft_cluster", .nat b.tableCluster.toNat),
    ("mft_mirror_cluster", .nat b.mirrorCluster.toNat),
    ("clusters_per_file_record", .int b.recordByte.toInt),
    ("clusters_per_index_buffer", .int b.indexByte.toInt),
    ("volume_serial_number", .nat b.serialNumber.toNat),
    ("end_of_sector_marker", .nat b.endMarker.toNat)]

def report (b : BootSector) : String :=
  Grid.render [["Partition Boot Sector"],
    ["OEM ID", oemText b.oemId],
    ["Bytes per sector", toString b.bytesPerSector],
    ["Sectors per cluster", toString (b.clusterSectors?.getD 0)],
    ["Total sectors", toString b.totalSectors],
    ["$MFT cluster", toString b.tableCluster],
    ["$MFTMirr cluster", toString b.mirrorCluster],
    ["File record size", toString (b.recordSize?.getD 0)],
    ["Serial number", Hex.upper 16 b.serialNumber.toNat]]

end BootSector

end Ntfs
