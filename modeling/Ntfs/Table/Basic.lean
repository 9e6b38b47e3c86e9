import Ntfs.Record.Basic
import Ntfs.Table.Trail

/-!
# File tables

The file table holds all records of a volume in the order of their numbers.  Links between records
lead from a base record through the records that extend it; `chain` follows them and cuts a circle
at the first record met twice.
-/

namespace Ntfs

/-- All records of a volume; record `i` stands at place `i`. -/
structure Table where
  records : Array Record
  deriving DecidableEq, Repr

namespace Table

def size (t : Table) : Nat := t.records.size

def get? (t : Table) (id : Nat) : Option Record := t.records[id]?

/-- The records that carry data, in order. -/
def validRecords (t : Table) : List Record := t.records.toList.filter (·.isValid)

def modify (t : Table) (id : Nat) (f : Record → Record) : Table := ⟨t.records.modify id f⟩

@[simp]
theorem size_modify (t : Table) (id : Nat) (f : Record → Record) :
    (t.modify id f).size = t.size := by
  simp [modify, size]

theorem get?_modify (t : Table) (id other : Nat) (f : Record → Record) :
    (t.modify id f).get? other = if id = other then (t.get? other).map f else t.get? other := by
  simp [modify, get?, Array.getElem?_modify]

def link? (t : Table) (id : Nat) : Option Nat := (t.get? id).bind fun r => r.link.map UInt64.toNat

/-- The records that make up a file, starting with `id`.  No record comes twice, so as many steps
as there are records are enough. -/
def chain (t : Table) (id : Nat) : List Nat :=
  trail (fun c => decide (c < t.size)) t.link? t.size ∅ (some id)

def chainRecords (t : Table) (id : Nat) : List Record := (t.chain id).filterMap t.get?

def attribute? (t : Table) (id : Nat) (kind : AttributeKind) : Option Attribute :=
  (t.chainRecords id).findSome? (·.attribute? kind)

end Table

end Ntfs
