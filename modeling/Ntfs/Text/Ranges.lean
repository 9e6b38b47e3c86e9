/-!
# Sets of characters

A set of characters is written as a list of closed ranges of code points.
-/

namespace Ntfs

/-- A set of characters, as closed ranges of code points. -/
abbrev Ranges := List (Nat × Nat)

namespace Ranges

def has (ranges : Ranges) (c : Char) : Bool :=
  ranges.any fun (first, last) => first ≤ c.toNat && c.toNat ≤ last

end Ranges

end Ntfs
