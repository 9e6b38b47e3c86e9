import Ntfs.Table.Basic

/-!
# Paths

The path of a file is found by walking up from parent to parent.  The walk ends at the root
directory, at a directory that is its own parent, at one that is missing, and at one met before.
Directories without a name are left out.
-/

namespace Ntfs.Table

def rootId : Nat := 5

def parent? (t : Table) (id : Nat) : Option Nat :=
  (t.get? id).bind fun r => r.parent.map UInt64.toNat

/-- Whether paths start at a record: it is the root directory, or a directory that is its own
parent. -/
def isTop (t : Table) (id : Nat) : Bool := id == rootId || t.parent? id == some id

/-- The directories above a record, from its parent upwards.  No record comes twice, so as many
steps as there are records are enough. -/
def directoriesAbove (t : Table) (id : Nat) : List Nat :=
  trail (fun p => decide (p < t.size) && !t.isTop p) t.parent? t.size {id} (t.parent? id)

/-- The name of a directory in a path; none if there is nothing to show. -/
def directoryName? (t : Table) (id : Nat) : Option String :=
  ((t.get? id).bind (·.name?)).filter fun name => !name.isEmpty

/-- The path of a record; none if the record has no name. -/
def path? (t : Table) (id : Nat) : Option String := do
  let r ← t.get? id
  let name ← r.name?
  if t.isTop id then return "/"
  let names := name :: (t.directoriesAbove id).filterMap t.directoryName?
  return "/" ++ "/".intercalate names.reverse

end Ntfs.Table
