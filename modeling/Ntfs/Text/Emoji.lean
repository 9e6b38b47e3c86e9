import Ntfs.Text.EmojiTable

/-!
# Emoji sequences

Several characters may be drawn as one picture: a flag of two regional indicators, a base with its
skin tone, a keycap, a flag spelled in tags, and pictures tied together by joiners.  A text is
measured from its end, so what is known of a sequence is its tail.  `Tail.before?` says how a tail
grows by the character before it and how many columns that character adds; a picture takes its two
columns once, at its last part.
-/

namespace Ntfs.Emoji

/-- The zero-width joiner, which ties two pictures into one. -/
def joiner : Char := '\u200D'

/-- The mark that draws a key around a digit. -/
def keycapMark : Char := '\u20E3'

/-- Whether a variation selector can ask for the textual or the pictorial form of a character. -/
def hasForms (c : Char) : Bool := EmojiTable.twoForms.has c

/-- Whether a character is drawn as a picture unless asked otherwise. -/
def isPicture (c : Char) : Bool := EmojiTable.pictures.has c

/-- Whether the textual form of a picture takes one column only.  Enclosed ideographs are wide in
either form. -/
def isNarrowAsText (c : Char) : Bool :=
  hasForms c && isPicture c && !Ranges.has [(0x1F200, 0x1F2FF)] c

def isTone (c : Char) : Bool := Ranges.has [(0x1F3FB, 0x1F3FF)] c

def isToneBase (c : Char) : Bool := EmojiTable.toneBases.has c

/-- Regional indicators, two of which make a flag. -/
def isRegion (c : Char) : Bool := Ranges.has [(0x1F1E6, 0x1F1FF)] c

def isTagLetter (c : Char) : Bool := Ranges.has [(0xE0061, 0xE007A)] c

def isTagDigit (c : Char) : Bool := Ranges.has [(0xE0030, 0xE0039)] c

def isTagEnd (c : Char) : Bool := c.toNat == 0xE007F

/-- The black flag, on which the region spelled by tags is drawn. -/
def isBlackFlag (c : Char) : Bool := c.toNat == 0x1F3F4

/-- What is known of a sequence, read from its end. -/
inductive Tail where
  /-- A whole picture. -/
  | picture
  /-- A skin tone. -/
  | tone
  /-- So many regional indicators. -/
  | regions (count : Nat)
  /-- A joiner, and a picture after it. -/
  | joined
  /-- A keycap mark before a joined picture. -/
  | keycap
  /-- So many regional indicators before a joined picture. -/
  | joinedRegions (count : Nat)
  /-- Tags before a joined picture: so many letters, and so many digits before them. -/
  | tags (letters digits : Nat)
  deriving DecidableEq, Repr

/-- The columns of regional indicators before a joined picture.  They pair from the left, so the
last two of an even number are a flag that belongs to the joined picture. -/
def regionColumns (count : Nat) : Nat := if count % 2 = 0 then count - 2 else count

namespace Tail

/-- Whether a picture is joined to what stands before it. -/
def isJoined : Tail → Bool
  | joined | keycap => true
  | _ => false

/-- The tail that a character starts when it belongs to nothing after it. -/
def ofChar? (c : Char) : Option Tail :=
  if isTone c then some tone
  else if isRegion c then some (regions 1)
  else if isPicture c then some picture
  else none

/-- Whether tags spell a region: two letters for a country and one to four for a part of it, or
three digits and up to four letters. -/
def spellsRegion (letters digits : Nat) : Bool :=
  digits == 3 || (digits == 0 && 3 ≤ letters)

/-- The columns added and the tail reached when `c` stands before a tail, if it belongs to the
sequence. -/
def before? (tail : Tail) (c : Char) : Option (Int × Tail) :=
  match tail with
  | picture => if c = joiner then some (0, joined) else none
  | tone =>
    if isToneBase c then some (0, picture) else if c = joiner then some (0, joined) else none
  | regions count =>
    if isRegion c then some (1, regions (count + 1))
    else if c = joiner ∧ 2 ≤ count then some (0, joined)
    else none
  | joined =>
    if c = keycapMark then some (0, keycap)
    else if isRegion c then some (regionColumns 1, joinedRegions 1)
    else if isTone c then some (0, tone)
    else if isTagEnd c then some (0, tags 0 0)
    else if isPicture c then some (0, picture)
    else none
  | keycap => none
  | joinedRegions count =>
    if isRegion c then
      some (Int.ofNat (regionColumns (count + 1)) - Int.ofNat (regionColumns count),
        joinedRegions (count + 1))
    else if c = joiner ∧ 2 ≤ count then some (0, joined)
    else none
  | tags letters digits =>
    if isTagLetter c && digits == 0 && letters < 6 then some (0, tags (letters + 1) 0)
    else if isTagDigit c && ((digits == 0 && letters ≤ 4) || digits == 1 || digits == 2) then
      some (0, tags letters (digits + 1))
    else if isBlackFlag c && spellsRegion letters digits then some (0, picture)
    else none

end Tail

end Ntfs.Emoji
