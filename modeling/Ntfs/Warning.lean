import Ntfs.Note

/-!
# Warnings

A warning tells of a problem that did not stop the work: a damaged structure, a reference to a
record that does not exist, or a read that would leave the disk.  It names the record it is about.
-/

namespace Ntfs

/-- A problem met on the way. -/
inductive Warning where
  /-- A damaged structure. -/
  | corruption (record : UInt64) (message : String)
  /-- A reference to a record outside the table. -/
  | dangling (record target : UInt64) (message : String)
  /-- A read past the end of the disk. -/
  | outOfRange (record offset : UInt64) (message : String)
  deriving DecidableEq, Repr

namespace Warning

def record : Warning → UInt64
  | corruption record _ | dangling record _ _ | outOfRange record _ _ => record

def text : Warning → String
  | corruption record message => s!"record {record}: corrupted structure: " ++ message
  | dangling record target message =>
    s!"record {record}: dangling reference to {target}: " ++ message
  | outOfRange record offset message =>
    s!"record {record}: read at 0x" ++ Hex.upper 1 offset.toNat ++ " out of range: " ++ message

/-- The warning that a note on a record becomes. -/
def ofNote (record : UInt64) (n : Note) : Warning := .corruption record n.message

end Warning

end Ntfs
