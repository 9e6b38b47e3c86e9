import Ntfs.Table.Basic

/-!
# Parents

The parent of a record is the directory its shown name belongs to, if the table has it.
-/

namespace Ntfs.Table

/-- The parent that the shown name of a record gives it, in a table of `size` records. -/
def parentOf (size : Nat) (r : Record) : Record × List Warning :=
  match r.preferredName? with
  | none => (r, [])
  | some f =>
    let parent := f.parent.record
    if parent.toNat < size then ({ r with parent := some parent }, [])
    else (r, [.dangling r.id parent "parent directory outside the table"])

def withParents (t : Table) : Table × List Warning :=
  let changed := t.records.toList.map (parentOf t.size)
  (⟨(changed.map (·.1)).toArray⟩, changed.flatMap (·.2))

end Ntfs.Table
