import Ntfs.Bytes
import Ntfs.Json.Basic

/-!
# Reading JSON values

Readers of the shapes that stored records are made of.  A structure is an object whose unknown
members are ignored, or an array of all its fields in order.  A member that may be absent reads
as absent when it is missing or `null`.  A tagged value is a string for a bare tag, or an object
with the tag as its only member; where the tag has named fields of its own, an object holds them
and nothing else does.
-/

namespace Ntfs.Json

def natBelow? (bound : Nat) : Json → Option Nat
  | .int n => if 0 ≤ n ∧ n < bound then some n.toNat else none
  | _ => none

def u8? (j : Json) : Option UInt8 := (natBelow? UInt8.size j).map UInt8.ofNat
def u16? (j : Json) : Option UInt16 := (natBelow? UInt16.size j).map UInt16.ofNat
def u32? (j : Json) : Option UInt32 := (natBelow? UInt32.size j).map UInt32.ofNat
def u64? (j : Json) : Option UInt64 := (natBelow? UInt64.size j).map UInt64.ofNat

def i64? : Json → Option Int64
  | .int n => if -0x8000000000000000 ≤ n ∧ n < 0x8000000000000000 then some (Int64.ofInt n) else none
  | _ => none

def bool? : Json → Option Bool
  | .bool b => some b
  | _ => none

def str? : Json → Option String
  | .str s => some s
  | _ => none

def list? {α : Type} (read : Json → Option α) : Json → Option (List α)
  | .arr items => items.mapM read
  | _ => none

def bytes? (j : Json) : Option Bytes := list? u8? j

/-- The named members of an object, each absent if the object has no such member. -/
def members? (names : List String) : Json → Option (List (Option Json))
  | .obj members => some (names.map fun name => List.lookup name members)
  | _ => none

/-- The fields of a structure: the members of an object, or the items of an array. -/
def fields? (names : List String) : Json → Option (List (Option Json))
  | .arr items => if items.length = names.length then some (items.map some) else none
  | j => members? names j

def required {α : Type} (read : Json → Option α) (field : Option Json) : Option α :=
  field.bind read

/-- A field that may be missing or `null`. -/
def optional {α : Type} (read : Json → Option α) : Option Json → Option (Option α)
  | none => some none
  | some .null => some none
  | some j => (read j).map some

/-- The tag of a tagged value, and what it is applied to. -/
def tagged? : Json → Option (String × Option Json)
  | .str tag => some (tag, none)
  | .obj [(tag, j)] => some (tag, some j)
  | _ => none

/-- Whether nothing, or `null`, stands after a tag. -/
def isBare : Option Json → Bool
  | none => true
  | some .null => true
  | some _ => false

end Ntfs.Json
