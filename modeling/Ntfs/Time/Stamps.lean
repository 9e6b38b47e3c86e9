import Ntfs.Bytes
import Ntfs.Time.Instant

/-!
# The four times of a file

Two attributes of a file hold the same four times, one after the other.
-/

namespace Ntfs

/-- When a file was created, changed, had its record changed, and was last used. -/
structure Stamps where
  created : Option Instant
  modified : Option Instant
  recordModified : Option Instant
  accessed : Option Instant
  deriving DecidableEq, Repr

namespace Stamps

def none : Stamps := ⟨.none, .none, .none, .none⟩

/-- The four file times stored from `offset` on. -/
def ofBytes (raw : Bytes) (offset : Nat) : Stamps where
  created := Instant.ofFiletime (Bytes.u64 raw offset)
  modified := Instant.ofFiletime (Bytes.u64 raw (offset + 8))
  recordModified := Instant.ofFiletime (Bytes.u64 raw (offset + 16))
  accessed := Instant.ofFiletime (Bytes.u64 raw (offset + 24))

end Stamps

end Ntfs
