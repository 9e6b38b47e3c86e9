/-!
# Hexadecimal numerals
-/

namespace Ntfs.Hex

/-- Lower-case numeral, filled with zeros on the left up to `width` digits. -/
def lower (width n : Nat) : String :=
  let digits := Nat.toDigits 16 n
  String.ofList (List.replicate (width - digits.length) '0' ++ digits)

def upper (width n : Nat) : String :=
  String.ofList ((lower width n).toList.map Char.toUpper)

end Ntfs.Hex
