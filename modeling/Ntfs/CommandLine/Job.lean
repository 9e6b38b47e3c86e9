import Ntfs.CommandLine.Options

/-!
# Jobs

What a command line asks for once its options are known to go together: where the records come
from, what is shown of them, and, with a disk at hand, what is read from it.
-/

namespace Ntfs.CommandLine

/-- A volume on a disk that a file holds. -/
structure Partition where
  path : String
  format : String
  /-- The first byte of the volume. -/
  offset : UInt64
  /-- The sectors of the volume. -/
  sectors : UInt64
  /-- Whether to show the boot sector. -/
  showsBootSector : Bool
  /-- The record whose content is to be written out. -/
  dumps : Option UInt64
  deriving DecidableEq, Repr

/-- Where the records come from. -/
inductive Source where
  /-- A file that holds a file table. -/
  | tableFile (path : String)
  | partition (p : Partition)
  deriving DecidableEq, Repr

/-- Which records to show. -/
structure Query where
  file : Option UInt64
  all : Bool
  name : Option String
  extension : Option String
  deriving DecidableEq, Repr

def Query.isEmpty (q : Query) : Bool :=
  q.file.isNone && !q.all && q.name.isNone && q.extension.isNone

/-- What a command line asks for. -/
structure Job where
  source : Source
  query : Query
  range : Option (UInt64 × UInt64)
  json : Bool
  level : Level
  deriving DecidableEq, Repr

namespace Job

/-- A value that has to be given. -/
def demand {α : Type} (s : Setting) : Option α → Except Halt α
  | some value => .ok value
  | none => .error (.fault (.required (.setting s)))

/-- Where the records come from.  An extracted table and a disk exclude each other; with a table,
options that need a disk have no effect. -/
def sourceOf (o : Options) : Except Halt Source :=
  match o.tableFile with
  | some path =>
    if o.body.isSome then
      .error (.fault (.conflict (.setting .tableFile) (.setting .body)))
    else .ok (.tableFile path)
  | none => do
    let path ← demand .body o.body
    let sectors ← demand .size o.size
    return .partition {
      path, sectors
      format := o.format.getD "auto"
      offset := o.offset.getD 0
      showsBootSector := o.bootSector
      dumps := if o.dump then o.file else none }

def ofOptions (o : Options) : Except Halt Job := do
  let source ← sourceOf o
  if o.dump ∧ o.file.isNone then .error (.fault (.required (.setting .file)))
  return {
    source
    query := { file := o.file, all := o.paths, name := o.name, extension := o.extension }
    range := o.range
    json := o.json
    level := o.logLevel.getD .info }

def ofWords (words : List String) : Except Halt Job := do ofOptions (← Options.read words)

def path (job : Job) : String :=
  match job.source with
  | .tableFile path => path
  | .partition p => p.path

end Job

end Ntfs.CommandLine
