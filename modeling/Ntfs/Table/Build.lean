import Ntfs.Content.Walk
import Ntfs.Record.Parse
import Ntfs.Table.Links
import Ntfs.Table.Parents
import Ntfs.Table.Sizes

/-!
# Building a file table

A table is built from the bytes of all records: every record is parsed, attribute lists and index
blocks stored on the disk are loaded, and then links, parents and sizes are filled in.  With a
range, records outside it are left blank.
-/

namespace Ntfs

/-- How to build a table. -/
structure TableOptions where
  /-- The numbers of the records to parse, from the first up to one past the last. -/
  range : Option (Nat × Nat)
  /-- Where to load from what is not stored in the records. -/
  source : Option (Disk × Geometry)

namespace Table

/-- The records stored one after the other; an incomplete one at the end is ignored. -/
def stored (raw : Buffer) : List Buffer :=
  (List.range (raw.size / Record.size)).map fun index =>
    raw.slice (index * Record.size) ((index + 1) * Record.size)

/-- The numbers of the records to parse, if they exist. -/
def rangeOf (range : Option (Nat × Nat)) (total : Nat) : Except Failure (Nat × Nat) :=
  match range with
  | none => .ok (0, total)
  | some (start, stop) =>
    if stop ≤ start ∨ total < stop then .error (.entryRange start stop total)
    else .ok (start, stop)

/-- Parse the records whose number lies in a range; the others stay blank. -/
def parseRecords (range : Nat × Nat) (records : List Buffer) : List Record :=
  records.zipIdx.map fun (raw, index) =>
    Record.parse (UInt64.ofNat index) (if range.1 ≤ index ∧ index < range.2 then raw else .empty)

/-- The index root that an attribute of the record belongs to: the first with the same name. -/
def rootFor? (r : Record) (a : Attribute) : Option IndexRoot :=
  r.attributes.findSome? fun b =>
    match b.body with
    | .indexRoot root => if b.name == a.name then some root else none
    | _ => none

def decodeLoaded (r : Record) (a : Attribute) (content : Buffer) : Noted AttributeBody :=
  if a.kind = .attributeList then (ListEntry.decodeAll content).map .attributeList
  else
    let root := rootFor? r a
    let fileNameKeys := a.name == some directoryIndexName || root.any (·.indexesFileNames)
    (IndexAllocation.decode content (root.map (·.blockSize)) fileNameKeys).map .indexAllocation

/-- Whether the body of an attribute is to be loaded from the disk. -/
def needsLoading (a : Attribute) : Bool :=
  a.isNonResident && (a.kind == .attributeList || a.kind == .indexAllocation)

/-- Load the body of an attribute of the record, if it is stored on the disk.  One that cannot be
read stays as it is. -/
def loadAttribute (disk : Disk) (g : Geometry) (r : Record) (a : Attribute) : Trace Attribute :=
  if needsLoading a then do
    match ← (Content.ofAttribute disk g r.id a).attempt with
    | .error failure =>
      Trace.warn (.corruption r.id
        ("cannot read non-resident " ++ a.kind.name ++ ": " ++ failure.message))
      return a
    | .ok content =>
      let body := decodeLoaded r a content
      Trace.warnAll (body.notes.map (Warning.ofNote r.id))
      return { a with body := body.value }
  else return a

def loadRecord (disk : Disk) (g : Geometry) (r : Record) : Trace Record := do
  let attributes ← r.attributes.mapM (loadAttribute disk g r)
  return { r with attributes }

def loadRecords (source : Option (Disk × Geometry)) (records : List Record) :
    Trace (List Record) :=
  match source with
  | none => .done records
  | some (disk, g) => records.mapM (loadRecord disk g)

/-- Fill in links, parents and sizes. -/
def resolve (t : Table) : Trace Table := do
  let (t, linkWarnings) := t.linked
  Trace.warnAll linkWarnings
  let (t, parentWarnings) := t.withParents
  Trace.warnAll parentWarnings
  let (t, sizeWarnings) := t.withSizes
  Trace.warnAll sizeWarnings
  return t

/-- Build the table of the records in `raw`. -/
def build (options : TableOptions) (raw : Buffer) : Trace Table := do
  let records := stored raw
  let range ← Trace.ofExcept (rangeOf options.range records.length)
  let parsed := parseRecords range records
  Trace.warnAll (parsed.flatMap (·.warnings))
  let loaded ← loadRecords options.source parsed
  resolve ⟨loaded.toArray⟩

end Table

end Ntfs
