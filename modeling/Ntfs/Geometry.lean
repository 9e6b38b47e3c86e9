import Ntfs.Bytes

/-!
# Geometry of a volume

Where a volume starts on its disk and how large its clusters are.  Sizes and offsets are 64-bit:
a cluster size that does not fit is capped, an offset that does not fit does not exist.
-/

namespace Ntfs

/-- Where a volume lies and how it is divided. -/
structure Geometry where
  /-- The byte of the disk at which the volume starts. -/
  start : Nat
  sectorsPerCluster : Nat
  bytesPerSector : Nat
  deriving DecidableEq, Repr

namespace Geometry

def clusterSize (g : Geometry) : Nat := min (g.sectorsPerCluster * g.bytesPerSector) maxWord

/-- The byte of the disk at which a cluster starts. -/
def clusterOffset? (g : Geometry) (lcn : Nat) : Option Nat :=
  let offset := lcn * g.clusterSize
  if offset ≤ maxWord ∧ offset + g.start ≤ maxWord then some (offset + g.start) else none

end Geometry

end Ntfs
