import Ntfs.Attribute.Kind
import Ntfs.BootSector

/-!
# Failures

What ends an operation.  A failure is a cause; its wording is `Failure.message`.
-/

namespace Ntfs

/-- What a record does not have. -/
inductive Missing where
  /-- An attribute of the kind asked for. -/
  | stream (kind : AttributeKind)
  /-- Content of a resident attribute that could be read as bytes. -/
  | residentContent (kind : AttributeKind)
  /-- The content of the file table itself. -/
  | tableContent
  deriving DecidableEq, Repr

def Missing.name : Missing → String
  | stream kind => kind.name
  | residentContent kind => "resident " ++ kind.name ++ " content"
  | tableContent => "$DATA of $MFT"

/-- Why an operation ended without a result. -/
inductive Failure where
  /-- The range of records asked for does not lie in the file table. -/
  | entryRange (start stop total : Nat)
  /-- The volume has file records of another size. -/
  | recordSize (size : Nat)
  | bootSector (fault : BootSector.Fault)
  /-- The file table does not start with a file record. -/
  | noRecord (offset : Nat)
  | missing (record : Nat) (what : Missing)
  | outsideTable (record : Nat)
  /-- The disk refused to read. -/
  | io (reason : String)
  deriving DecidableEq, Repr

def Failure.message : Failure → String
  | entryRange start stop total =>
    s!"configuration error: entry range {start}..{stop} is outside the {total} records of the MFT"
  | recordSize size =>
    s!"configuration error: file records of {size} bytes are not supported (expected 1024)"
  | bootSector fault => "invalid partition boot sector: " ++ fault.message
  | noRecord offset =>
    "invalid partition boot sector: no FILE record at 0x" ++ Hex.upper 1 offset
  | missing record what => s!"record {record}: " ++ what.name ++ " attribute not found"
  | outsideTable record => s!"record {record} is outside the table"
  | io reason => "i/o error: " ++ reason

end Ntfs
