import Ntfs.Table.Basic

/-!
# Searching names

Names and extensions are compared in lower case.
-/

namespace Ntfs.Table

/-- The records that have a given name, in any namespace. -/
def withName (t : Table) (name : String) : List Record :=
  let wanted := Lowercase.lower name
  t.validRecords.filter fun r => r.fileNames.any fun f => Lowercase.lower f.name == wanted

/-- The records whose shown name has a given extension; dots before it do not count. -/
def withExtension (t : Table) (extension : String) : List Record :=
  let wanted := Lowercase.lower (String.ofList (extension.toList.dropWhile (· == '.')))
  t.validRecords.filter fun r => (r.preferredName?.bind (·.extension?)) == some wanted

end Ntfs.Table
