import Ntfs.Trace

/-!
# Disks

A disk has a size and can be asked for a range of its bytes.  It may answer with fewer bytes than
asked for, and it may refuse.  The size is what the disk reports of itself and may be wrong.
-/

namespace Ntfs

/-- A device that is read by byte ranges. -/
structure Disk where
  /-- The size the device reports. -/
  size : Nat
  /-- The bytes of a range, or why they cannot be read. -/
  readAt : (offset length : Nat) → Except String Buffer

namespace Disk

def read (d : Disk) (offset length : Nat) : Trace Buffer :=
  ⟨[⟨offset, length⟩], [], [], (d.readAt offset length).mapError Failure.io⟩

def ofBuffer (data : Buffer) : Disk where
  size := data.size
  readAt offset length := .ok (data.slice offset (offset + length))

/-- A device held in memory, with its defects. -/
structure Image where
  data : Buffer
  /-- The size the device reports. -/
  size : Nat
  /-- Ranges, from a first byte up to one past the last, that cannot be read. -/
  failing : List (Nat × Nat)
  /-- What a read of such a range answers. -/
  failure : String
  /-- The most bytes one read returns, if there is a limit. -/
  maxRead : Option Nat

/-- Whether a range of bytes, given as start and end, meets a failing one. -/
def Image.meetsFailure (image : Image) (start stop : Nat) : Bool :=
  image.failing.any fun (first, last) => max start first < min stop last

/-- The disk of a device held in memory.  A read returns the bytes that exist, and fails if one of
those cannot be read. -/
def ofImage (image : Image) : Disk where
  size := image.size
  readAt offset length :=
    let length := match image.maxRead with
      | some most => min length most
      | none => length
    let start := min offset image.data.size
    let stop := min (offset + length) image.data.size
    if image.meetsFailure start stop then .error image.failure
    else .ok (image.data.slice start stop)

end Disk

end Ntfs
