import Ntfs.Text.Blank
import Ntfs.Time.Calendar
import Ntfs.Time.Instant

/-!
# Time stamps as text

Instants are written after RFC 3339: date, `T`, time, the fewest of 0, 3, 6 or 9 fraction digits
that lose nothing, and the zone.  A year outside 0 to 9999 carries its sign.

Reading is more lenient than writing: blanks may stand around the separators, a blank or a small
`t` may stand for `T`, fields need not be filled with zeros, and any offset is accepted.
-/

namespace Ntfs.Rfc3339

/-- A number filled with zeros on the left up to `width` digits. -/
def padded (width n : Nat) : String :=
  let digits := toString n
  "".pushn '0' (width - digits.length) ++ digits

/-- The year: four digits, with a sign before any other number of them. -/
def year (y : Int) : String :=
  if 0 ≤ y ∧ y ≤ 9999 then padded 4 y.toNat
  else (if y < 0 then "-" else "+") ++ padded 4 y.natAbs

/-- The fraction of a second, with the point; empty when there is none. -/
def fraction (nanos : Nat) : String :=
  if nanos = 0 then ""
  else if nanos % 1000000 = 0 then "." ++ padded 3 (nanos / 1000000)
  else if nanos % 1000 = 0 then "." ++ padded 6 (nanos / 1000)
  else "." ++ padded 9 nanos

/-- Date and time of an instant, without a zone. -/
def dateTime (t : Instant) : String :=
  let day := Day.ofEpoch (t.seconds / 86400)
  let second := (t.seconds % 86400).toNat
  let leap := t.nanos / 1000000000
  year day.year ++ "-" ++ padded 2 day.month ++ "-" ++ padded 2 day.day ++ "T"
    ++ padded 2 (second / 3600) ++ ":" ++ padded 2 (second / 60 % 60) ++ ":"
    ++ padded 2 (second % 60 + leap) ++ fraction (t.nanos % 1000000000)

/-- The written form with the zone letter `Z`. -/
def zulu (t : Instant) : String := dateTime t ++ "Z"

def offset (t : Instant) : String := dateTime t ++ "+00:00"

/-! ### Reading -/

/-- A reader takes characters from the front and returns what it read with the rest. -/
abbrev Reader (α : Type) := List Char → Option (α × List Char)

/-- At least one and at most `width` digits. -/
def digits (width : Nat) : Reader Nat := fun cs =>
  let taken := (cs.take width).takeWhile Char.isDigit
  if taken.isEmpty then none
  else some (Nat.ofDigitChars 10 taken 0, cs.drop taken.length)

def field (width : Nat) : Reader Nat := fun cs => digits width (Blank.trimLeft cs)

/-- A year: four digits, or any number of them after a sign. -/
def yearField : Reader Int := fun cs =>
  match Blank.trimLeft cs with
  | '-' :: rest => (digits rest.length rest).map fun (n, rest) => (-(n : Int), rest)
  | '+' :: rest => (digits rest.length rest).map fun (n, rest) => ((n : Int), rest)
  | cs => (digits 4 cs).map fun (n, rest) => ((n : Int), rest)

/-- A separator, which blanks may precede. -/
def separator (c : Char) : Reader Unit := fun cs =>
  match Blank.trimLeft cs with
  | d :: rest => if d = c then some ((), rest) else none
  | [] => none

/-- The fraction in nanoseconds; digits past the ninth are dropped. -/
def fractionField : Reader Nat := fun cs =>
  match cs with
  | '.' :: rest =>
    let taken := (rest.take 9).takeWhile Char.isDigit
    if taken.isEmpty then none
    else
      let filled := taken ++ List.replicate (9 - taken.length) '0'
      some (Nat.ofDigitChars 10 filled 0, rest.dropWhile Char.isDigit)
  | cs => some (0, cs)

/-- Two digits, the first of which is at most `top`. -/
def twoDigits (top : Char) : Reader Nat := fun cs =>
  match cs with
  | a :: b :: rest =>
    if a.isDigit && b.isDigit && a ≤ top then some (Nat.ofDigitChars 10 [a, b] 0, rest) else none
  | _ => none

/-- Hours and minutes of a numeric zone, in seconds. -/
def zoneAmount : Reader Nat := fun cs => do
  let (hours, cs) ← twoDigits '9' cs
  let (minutes, cs) ← twoDigits '5' (cs.dropWhile fun c => c = ':' || Blank.isBlank c)
  some (hours * 3600 + minutes * 60, cs)

def zone : Reader Int := fun cs =>
  match Blank.trimLeft cs with
  | 'Z' :: rest | 'z' :: rest => some (0, rest)
  | '+' :: rest => (zoneAmount rest).map fun (n, rest) => ((n : Int), rest)
  | '-' :: rest | '\u2212' :: rest => (zoneAmount rest).map fun (n, rest) => (-(n : Int), rest)
  | a :: b :: c :: rest =>
    if [a, b, c].map Char.toUpper = ['U', 'T', 'C'] then some (0, rest) else none
  | _ => none

def yearInRange (y : Int) : Bool := -262143 ≤ y && y ≤ 262142

def parse? (s : String) : Option Instant := do
  let (y, cs) ← yearField s.toList
  let (_, cs) ← separator '-' cs
  let (month, cs) ← field 2 cs
  let (_, cs) ← separator '-' cs
  let (day, cs) ← field 2 cs
  let cs ← match cs with
    | 'T' :: rest | 't' :: rest | ' ' :: rest => some rest
    | _ => none
  let (hour, cs) ← field 2 cs
  let (_, cs) ← separator ':' cs
  let (minute, cs) ← field 2 cs
  let (_, cs) ← separator ':' cs
  let (second, cs) ← field 2 cs
  let (nanos, cs) ← fractionField cs
  let (east, cs) ← zone cs
  let date : Day := ⟨y, month, day⟩
  let inRange := (Blank.trimLeft cs).isEmpty && yearInRange y && date.isValid && hour ≤ 23
    && minute ≤ 59 && second ≤ 60 && -86400 < east && east < 86400
  if inRange then
    let leap := second / 60
    let instant : Instant :=
      { seconds := date.toEpoch * 86400 + hour * 3600 + minute * 60 + (second - leap : Nat) - east
        nanos := nanos + leap * 1000000000 }
    if yearInRange (Day.ofEpoch (instant.seconds / 86400)).year then some instant else none
  else none

end Ntfs.Rfc3339
