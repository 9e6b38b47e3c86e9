import Ntfs.Text.Ligature

/-!
# Display width

The number of terminal columns a text takes.  Alone, a mark takes none, a wide character two and
most others one; in an emoji sequence or a ligature a character may add fewer, which depends on
what stands after it.  So a text is measured from its end.  A colour sequence, from `ESC [` to
`m`, is invisible: its characters after the `ESC` are taken off again.
-/

namespace Ntfs.Width

def ofChar (c : Char) : Nat :=
  if c.toNat < 0x80 then 1
  else if WidthTable.zero.has c then 0
  else if WidthTable.double.has c then 2
  else if c = '\u17D8' then 3
  else 1

/-- The form of a character that a variation selector asks for. -/
inductive Form where
  /-- Drawn like a letter, in one column unless the character is an ideograph. -/
  | text
  /-- Drawn as a picture, in two columns. -/
  | picture
  deriving DecidableEq, Repr

/-- What stands after a character and may be drawn as one with it. -/
inductive Tail where
  /-- Nothing of the kind. -/
  | plain
  /-- The tail of an emoji sequence. -/
  | emoji (tail : Emoji.Tail)
  /-- The tail of a ligature. -/
  | ligature (tail : Ligature.Tail)
  deriving DecidableEq, Repr

/-- What stands after a character, as far as it bears on its columns. -/
structure Following where
  tail : Tail
  /-- The form that a selector right after the character asks for. -/
  form : Option Form
  deriving DecidableEq, Repr

/-- Nothing that bears on the columns of what stands before it. -/
def Following.plain : Following := ⟨.plain, none⟩

namespace Tail

def ofChar (c : Char) : Tail :=
  match Emoji.Tail.ofChar? c, Ligature.Tail.ofChar? c with
  | some tail, _ => emoji tail
  | none, some tail => ligature tail
  | none, none => plain

/-- The columns added and the tail reached when `c` stands before a tail and belongs to it. -/
def before? (tail : Tail) (c : Char) : Option (Int × Tail) :=
  match tail with
  | plain => none
  | emoji tail => (tail.before? c).map fun (columns, tail) => (columns, emoji tail)
  | ligature tail => (tail.before? c).map fun (columns, tail) => (columns, tail.elim plain ligature)

def isJoined : Tail → Bool
  | emoji tail => tail.isJoined
  | _ => false

/-- What is left of a tail before a selector: ligatures stay open across one, and a joined picture
across one that asks for a picture. -/
def select (form : Form) (tail : Tail) : Tail :=
  match tail, form with
  | ligature _, _ => tail
  | emoji _, .picture => if tail.isJoined then tail else plain
  | _, _ => plain

end Tail

/-- The columns that a character adds before a tail, and what then follows the next one. -/
def advance (c : Char) (tail : Tail) : Int × Following :=
  if c ≤ '\u00A0' then (1, .plain)
  else if c = '\uFE0E' then (0, ⟨tail.select .text, some .text⟩)
  else if c = '\uFE0F' then (0, ⟨tail.select .picture, some .picture⟩)
  else
    match tail.before? c with
    | some (columns, tail) => (columns, ⟨tail, none⟩)
    | none => (ofChar c, ⟨.ofChar c, none⟩)

/-- The columns that a character adds to what follows it, and what then follows the next one.  A
picture that a selector asks for takes two columns, or none if it is joined to the next; a
selector that is not obeyed closes all but a ligature. -/
def step (c : Char) (following : Following) : Int × Following :=
  match following with
  | ⟨tail, some .picture⟩ =>
    if Emoji.hasForms c then (if tail.isJoined then 0 else 2, ⟨.emoji .picture, none⟩)
    else advance c (tail.select .text)
  | ⟨tail, some .text⟩ => if Emoji.isNarrowAsText c then (1, .plain) else advance c tail
  | ⟨tail, none⟩ => advance c tail

/-- The columns of a text with nothing hidden in it, and what it is for a text before it. -/
def measure (cs : List Char) : Int × Following :=
  cs.foldr (fun c (columns, following) =>
    let (added, following) := step c following
    (columns + added, following)) (0, .plain)

/-- Where a scan for colour sequences stands. -/
inductive Scan where
  /-- In plain text. -/
  | plain
  /-- After an escape character. -/
  | escape
  /-- Inside a colour sequence. -/
  | sequence
  /-- At the end of one. -/
  | ended
  deriving DecidableEq, Repr

def Scan.next : Scan → Char → Scan
  | .plain, c => if c = '\x1b' then .escape else .plain
  | .escape, c => if c = '[' then .sequence else .plain
  | .sequence, c => if c = 'm' then .ended else .sequence
  | .ended, c => if c = '\x1b' then .escape else .plain

/-- Whether a character shows on its own: it is no control character and takes a column. -/
def shows (c : Char) : Bool := !Ranges.has [(0x00, 0x1F), (0x7F, 0x9F)] c && 0 < ofChar c

/-- How many characters of colour sequences, their `ESC` apart, were counted and do not show. -/
def hidden (scan : Scan) : List Char → Nat
  | [] => 0
  | c :: rest =>
    let scan := scan.next c
    (if (scan = .sequence || scan = .ended) && shows c then 1 else 0) + hidden scan rest

def ofChars (cs : List Char) : Nat := (measure cs).1.toNat - hidden .plain cs

end Ntfs.Width
