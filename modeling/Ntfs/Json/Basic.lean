/-!
# JSON values

The tree of a JSON document.  An object keeps its members in the order they were given; printing
in a fixed order is the matter of `Json.sorted`.
-/

namespace Ntfs

/-- A JSON value. -/
inductive Json where
  | null
  | bool (b : Bool)
  /-- A number without a fraction. -/
  | int (n : Int)
  /-- The number `mantissa` divided by ten `places` times. -/
  | decimal (mantissa : Int) (places : Nat)
  | str (s : String)
  | arr (items : List Json)
  | obj (members : List (String × Json))
  deriving Inhabited

namespace Json

def nat (n : Nat) : Json := .int n

def opt {α : Type} (f : α → Json) : Option α → Json
  | none => .null
  | some a => f a

def list {α : Type} (f : α → Json) (items : List α) : Json := .arr (items.map f)

def bytes (b : List UInt8) : Json := list (fun x => nat x.toNat) b

/-- Order of members by the code points of their names. -/
def nameLE (a b : String × Json) : Bool := a.1 ≤ b.1

mutual

/-- The same value with the members of every object in the order of their names. -/
def sorted : Json → Json
  | .arr items => .arr (sortedItems items)
  | .obj members => .obj ((sortedMembers members).mergeSort nameLE)
  | j => j

def sortedItems : List Json → List Json
  | [] => []
  | j :: rest => j.sorted :: sortedItems rest

def sortedMembers : List (String × Json) → List (String × Json)
  | [] => []
  | (name, j) :: rest => (name, j.sorted) :: sortedMembers rest

end

/-- Replace the value of a member, or add it at the end. -/
def set (j : Json) (name : String) (value : Json) : Json :=
  match j with
  | .obj members =>
    if members.any (·.1 == name) then
      .obj (members.map fun m => if m.1 == name then (name, value) else m)
    else .obj (members ++ [(name, value)])
  | j => j

end Json

end Ntfs
