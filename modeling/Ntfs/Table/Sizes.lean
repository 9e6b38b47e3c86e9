import Ntfs.Table.Basic

/-!
# Sizes

Directory indexes keep the size of each file beside its name, which is all that is left of the size
of a deleted file.  Sizes found in index roots are applied before those found in allocations, and
the last one for a record stays.  The size of a file is that of its unnamed stream if it has one,
and else the one found in an index.
-/

namespace Ntfs

/-- A size that an index gives for a file. -/
structure IndexedSize where
  /-- The record that holds the index. -/
  directory : UInt64
  file : UInt64
  size : UInt64
  deriving DecidableEq, Repr

namespace IndexedSize

def ofEntries (directory : UInt64) (entries : List IndexEntry) : List IndexedSize :=
  entries.filterMap fun e => e.fileName.map fun f => ⟨directory, e.file.record, f.realSize⟩

def ofRoots (r : Record) : List IndexedSize :=
  r.attributes.flatMap fun a =>
    match a.body with
    | .indexRoot root => ofEntries r.id root.entries
    | _ => []

def ofAllocations (r : Record) : List IndexedSize :=
  r.attributes.flatMap fun a =>
    match a.body with
    | .indexAllocation allocation => ofEntries r.id allocation.entries
    | _ => []

end IndexedSize

namespace Table

/-- All sizes found in indexes, in the order they are applied. -/
def indexedSizes (t : Table) : List IndexedSize :=
  t.records.toList.flatMap IndexedSize.ofRoots
    ++ t.records.toList.flatMap IndexedSize.ofAllocations

/-- Apply one size; returns the warning it raises, if any. -/
def applySize (t : Table) (s : IndexedSize) : Table × List Warning :=
  if s.file.toNat < t.size then
    (t.modify s.file.toNat fun r => { r with derivedSize := some s.size }, [])
  else (t, [.dangling s.directory s.file "index entry points outside the table"])

def applySizes (t : Table) : List IndexedSize → Table × List Warning
  | [] => (t, [])
  | s :: rest =>
    let (t, warnings) := t.applySize s
    let (t, more) := t.applySizes rest
    (t, warnings ++ more)

/-- Give every record the size that indexes have for it. -/
def withSizes (t : Table) : Table × List Warning := t.applySizes t.indexedSizes

/-- The first extent of the unnamed stream of a file. -/
def firstExtent? (t : Table) (id : Nat) : Option Attribute :=
  ((t.chainRecords id).filterMap (·.stream? none)).find? (·.isFirstExtent)

def logicalSize? (t : Table) (id : Nat) : Option UInt64 :=
  ((t.firstExtent? id).map (·.contentSize)).or ((t.get? id).bind (·.derivedSize))

def physicalSize? (t : Table) (id : Nat) : Option UInt64 :=
  ((t.firstExtent? id).map (·.allocatedSize)).or ((t.get? id).bind (·.physicalSize?))

end Table

end Ntfs
