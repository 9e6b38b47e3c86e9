import Ntfs.Bytes

/-!
# Values on the command line

The text of an option's value: a 64-bit number, decimal or, after `0x`, hexadecimal; a range of
such numbers; a level of detail.
-/

namespace Ntfs.CommandLine

/-- The value of a digit, in either case, if it is one of the radix. -/
def digit? (radix : Nat) (c : Char) : Option Nat :=
  let value :=
    if '0' ≤ c ∧ c ≤ '9' then some (c.toNat - '0'.toNat)
    else if 'a' ≤ c ∧ c ≤ 'f' then some (c.toNat - 'a'.toNat + 10)
    else if 'A' ≤ c ∧ c ≤ 'F' then some (c.toNat - 'A'.toNat + 10)
    else none
  value.filter (· < radix)

/-- The number a numeral stands for; there is at least one digit, and a plus sign may come first. -/
def numeral? (radix : Nat) (text : List Char) : Option Nat :=
  let digits := match text with
    | '+' :: digits => digits
    | digits => digits
  if digits.isEmpty then none
  else digits.foldlM (fun n c => (digit? radix c).map (radix * n + ·)) 0

def word? (text : String) : Option UInt64 :=
  let n := match text.toList with
    | '0' :: 'x' :: digits | '0' :: 'X' :: digits => numeral? 16 digits
    | digits => numeral? 10 digits
  (n.filter (· ≤ maxWord)).map UInt64.ofNat

/-- The texts before and after the first occurrence of a character. -/
def splitAt? (mark : Char) (text : String) : Option (String × String) :=
  let cs := text.toList
  match cs.dropWhile (· != mark) with
  | [] => none
  | _ :: after => some (String.ofList (cs.takeWhile (· != mark)), String.ofList after)

/-- A range, written as its start, a colon and its end. -/
def range? (text : String) : Option (UInt64 × UInt64) := do
  let (start, stop) ← splitAt? ':' text
  return (← word? start, ← word? stop)

/-- How much is told about the work, from least to most. -/
inductive Level where
  | error
  | warn
  | info
  | debug
  | trace
  deriving DecidableEq, Repr

namespace Level

def name : Level → String
  | error => "error"
  | warn => "warn"
  | info => "info"
  | debug => "debug"
  | trace => "trace"

def ofName? (name : String) : Option Level :=
  [error, warn, info, debug, trace].find? (·.name == name)

def rank : Level → Nat
  | error => 0
  | warn => 1
  | info => 2
  | debug => 3
  | trace => 4

end Level

end Ntfs.CommandLine
