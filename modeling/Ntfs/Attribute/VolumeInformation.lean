import Ntfs.Note

/-!
# Volume information

The version of the file system and the state of the volume.
-/

namespace Ntfs

/-- The value of a volume information attribute. -/
structure VolumeInformation where
  major : UInt8
  minor : UInt8
  flags : UInt16
  deriving DecidableEq, Repr

namespace VolumeInformation

def size : Nat := 12

def decode (raw : Bytes) : Noted (Option VolumeInformation) :=
  if raw.length < size then .note none (.volumeInformationShort raw.length)
  else .clean <| some {
    major := Bytes.u8 raw 8
    minor := Bytes.u8 raw 9
    flags := Bytes.u16 raw 10 }

/-- Whether the volume was not closed properly. -/
def isDirty (v : VolumeInformation) : Bool := v.flags &&& 1 != 0

end VolumeInformation

end Ntfs
