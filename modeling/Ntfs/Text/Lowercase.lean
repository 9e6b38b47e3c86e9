import Ntfs.Text.CaseTable

/-!
# Lower case

Full lower-case mapping of a text: every character by the Unicode tables, `İ` to two characters,
and a capital sigma to its final form where it ends a word.  Two names are the same up to case
when their lower-case forms are equal.
-/

namespace Ntfs.Lowercase

def simple (c : Char) : Char :=
  let n := c.toNat
  if n < 0x80 then (if 0x41 ≤ n && n ≤ 0x5A then Char.ofNat (n + 0x20) else c)
  else
    match CaseTable.shifts.find? fun (first, last, step, _) =>
      first ≤ n && n ≤ last && (n - first) % step == 0 with
    | some (_, _, _, shift) => Char.ofNat (n + shift).toNat
    | none => c

def isCased (c : Char) : Bool := CaseTable.cased.has c

/-- Characters that do not end a word. -/
def isIgnorable (c : Char) : Bool := CaseTable.ignorable.has c

/-- Whether a cased letter comes first once the ignorable characters are skipped. -/
def meetsCased (cs : List Char) : Bool :=
  match cs.dropWhile isIgnorable with
  | c :: _ => isCased c
  | [] => false

/-- The lower-case characters of `rest`, where `before` holds what was already read, last first. -/
def mapFrom (before : List Char) : (rest : List Char) → List Char
  | [] => []
  | c :: rest =>
    let lowered :=
      if c = 'Σ' then [if meetsCased before && !meetsCased rest then 'ς' else 'σ']
      else if c = 'İ' then ['i', '\u0307']
      else [simple c]
    lowered ++ mapFrom (c :: before) rest

def lower (s : String) : String := String.ofList (mapFrom [] s.toList)

end Ntfs.Lowercase
