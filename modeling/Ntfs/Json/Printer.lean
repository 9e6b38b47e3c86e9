import Ntfs.Json.Basic
import Ntfs.Text.Hex

/-!
# JSON text

Two layouts of a value: `compact` on one line without blanks, and `pretty` with one member or item
a line, indented by two blanks a level.  In strings only quotes, backslashes and control
characters are escaped.
-/

namespace Ntfs.Json

def escape (c : Char) : String :=
  if c = '"' then "\\\""
  else if c = '\\' then "\\\\"
  else if c = '\n' then "\\n"
  else if c = '\r' then "\\r"
  else if c = '\t' then "\\t"
  else if c = '\x08' then "\\b"
  else if c = '\x0c' then "\\f"
  else if c.toNat < 0x20 then "\\u" ++ Hex.lower 4 c.toNat
  else String.singleton c

def quoted (s : String) : String := "\"" ++ String.join (s.toList.map escape) ++ "\""

/-- A number with a fraction. -/
def decimalText (mantissa : Int) (places : Nat) : String :=
  let digits := toString mantissa.natAbs
  let digits := "".pushn '0' (places + 1 - digits.length) ++ digits
  let whole := digits.toList.take (digits.length - places)
  (if mantissa < 0 then "-" else "") ++ String.ofList whole ++ "."
    ++ String.ofList (digits.toList.drop whole.length)

mutual

def compact : Json → String
  | .null => "null"
  | .bool b => if b then "true" else "false"
  | .int n => toString n
  | .decimal mantissa places => decimalText mantissa places
  | .str s => quoted s
  | .arr items => "[" ++ ",".intercalate (compactItems items) ++ "]"
  | .obj members => "\x7b" ++ ",".intercalate (compactMembers members) ++ "\x7d"

def compactItems : List Json → List String
  | [] => []
  | j :: rest => j.compact :: compactItems rest

def compactMembers : List (String × Json) → List String
  | [] => []
  | (name, j) :: rest => (quoted name ++ ":" ++ j.compact) :: compactMembers rest

end

/-- The lines of an array or object between its brackets. -/
def block (indent : Nat) (first last : String) (lines : List String) : String :=
  if lines.isEmpty then first ++ last
  else
    let blanks := fun n => "".pushn ' ' (2 * n)
    first ++ "\n" ++ ",\n".intercalate (lines.map (blanks (indent + 1) ++ ·)) ++ "\n"
      ++ blanks indent ++ last

mutual

/-- The text over several lines; `indent` is the level of the line it starts on. -/
def prettyAt (indent : Nat) : Json → String
  | .arr items => block indent "[" "]" (prettyItems (indent + 1) items)
  | .obj members => block indent "\x7b" "\x7d" (prettyMembers (indent + 1) members)
  | j => j.compact

def prettyItems (indent : Nat) : List Json → List String
  | [] => []
  | j :: rest => j.prettyAt indent :: prettyItems indent rest

def prettyMembers (indent : Nat) : List (String × Json) → List String
  | [] => []
  | (name, j) :: rest => (quoted name ++ ": " ++ j.prettyAt indent) :: prettyMembers indent rest

end

def pretty (j : Json) : String := j.prettyAt 0

end Ntfs.Json
