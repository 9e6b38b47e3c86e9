import Ntfs.Note

/-!
# Object identifiers

Sixteen-byte identifiers of a file: its own and, where present, those it was born with.  The first
three fields of an identifier are little-endian numbers, the rest are bytes.
-/

namespace Ntfs

/-- The written form of an identifier stored in 16 bytes. -/
def guidText (raw : Bytes) : String :=
  let pairs := fun (b : Bytes) => String.join (b.map fun x => Hex.lower 2 x.toNat)
  Hex.lower 8 (Bytes.u32 raw 0).toNat ++ "-" ++ Hex.lower 4 (Bytes.u16 raw 4).toNat ++ "-"
    ++ Hex.lower 4 (Bytes.u16 raw 6).toNat ++ "-" ++ pairs ((raw.drop 8).take 2) ++ "-"
    ++ pairs ((raw.drop 10).take 6)

/-- The written form of the identifier at `offset`, if it lies inside. -/
def guidAt? (raw : Bytes) (offset : Nat) : Option String :=
  (Bytes.slice? raw offset 16).map guidText

/-- The value of an object identifier attribute. -/
structure ObjectId where
  object : String
  birthVolume : Option String
  birthObject : Option String
  domain : Option String
  deriving DecidableEq, Repr

namespace ObjectId

def decode (raw : Bytes) : Noted (Option ObjectId) :=
  match guidAt? raw 0 with
  | none => .note none (.objectIdShort raw.length)
  | some object => .clean <| some {
      object
      birthVolume := guidAt? raw 16
      birthObject := guidAt? raw 32
      domain := guidAt? raw 48 }

end ObjectId

end Ntfs
