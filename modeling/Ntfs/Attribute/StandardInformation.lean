import Ntfs.Note
import Ntfs.Time.Stamps

/-!
# Standard information

The attribute every file has: its four times, its flags and, in the longer layout, owner, security
and change-journal data.  Fields of the longer layout that the value does not hold are absent.
-/

namespace Ntfs

/-- The value of a standard information attribute. -/
structure StandardInformation where
  stamps : Stamps
  flags : UInt32
  maxVersions : UInt32
  version : UInt32
  classId : UInt32
  ownerId : Option UInt32
  securityId : Option UInt32
  quotaCharged : Option UInt64
  journalSequence : Option UInt64
  deriving DecidableEq, Repr

def fileFlagNames : List (UInt32 × String) := [
  (0x0001, "READONLY"), (0x0002, "HIDDEN"), (0x0004, "SYSTEM"), (0x0020, "ARCHIVE"),
  (0x0100, "TEMPORARY"), (0x0200, "SPARSE_FILE"), (0x0400, "REPARSE_POINT"),
  (0x0800, "COMPRESSED"), (0x1000, "OFFLINE"), (0x2000, "NOT_CONTENT_INDEXED"),
  (0x4000, "ENCRYPTED"), (0x10000000, "DIRECTORY"), (0x20000000, "INDEX_VIEW")]

/-- The names of a set of flags that are set, in the order of the table. -/
def namedFlags (names : List (UInt32 × String)) (flags : UInt32) : String :=
  let named := names.filter fun (bit, _) => flags &&& bit != 0
  if named.isEmpty then "None" else " | ".intercalate (named.map (·.2))

namespace StandardInformation

/-- The length of the short layout. -/
def minSize : Nat := 0x30

def decode (raw : Bytes) : Noted (Option StandardInformation) :=
  if raw.length < minSize then .note none (.standardInformationShort raw.length)
  else .clean <| some {
    stamps := Stamps.ofBytes raw 0x00
    flags := Bytes.u32 raw 0x20
    maxVersions := Bytes.u32 raw 0x24
    version := Bytes.u32 raw 0x28
    classId := Bytes.u32 raw 0x2C
    ownerId := Bytes.u32? raw 0x30
    securityId := Bytes.u32? raw 0x34
    quotaCharged := Bytes.u64? raw 0x38
    journalSequence := Bytes.u64? raw 0x40 }

def flagNames (s : StandardInformation) : String := namedFlags fileFlagNames s.flags

end StandardInformation

end Ntfs
