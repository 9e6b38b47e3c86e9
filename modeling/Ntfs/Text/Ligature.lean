import Ntfs.Text.Emoji
import Ntfs.Text.WidthTable

/-!
# Ligatures

In some scripts neighbouring letters are drawn as one, and take fewer columns together than alone.
A text is measured from its end, so what is known of a ligature is its tail: its last letters, and
whether a joiner asks for it.  Marks that are ignored by default do not break a ligature.
-/

namespace Ntfs.Ligature

/-- The last letters of a ligature that may be completed by what stands before them. -/
inductive Tail where
  /-- An Arabic alef, which a lam joins. -/
  | alef
  /-- A Hebrew lamed, which a joiner ties to an alef. -/
  | lamed (joined : Bool)
  /-- A Buginese ya, which a joiner ties to a vowel sign i. -/
  | ya (joined : Bool)
  /-- A Buginese vowel sign i tied to a ya, which a letter a completes. -/
  | vowelYa
  /-- A Khmer letter that is written below the line after a coeng. -/
  | subscript
  /-- A Lisu tone letter that stands below another. -/
  | lisuTone
  /-- A Tifinagh consonant, which a joiner ties to another. -/
  | tifinagh (joined : Bool)
  /-- A Tifinagh consonant joiner and a consonant after it. -/
  | tifinaghPair
  /-- An Old Turkic i, which a joiner ties to an ec. -/
  | orkhonI (joined : Bool)
  deriving DecidableEq, Repr

def isAlef (c : Char) : Bool :=
  Ranges.has [(0x0622, 0x0623), (0x0625, 0x0625), (0x0627, 0x0627), (0x0671, 0x0673),
    (0x0675, 0x0675), (0x0773, 0x0774), (0x0870, 0x0882)] c

def isLam (c : Char) : Bool :=
  Ranges.has [(0x0644, 0x0644), (0x06B5, 0x06B8), (0x076A, 0x076A), (0x08A6, 0x08A6),
    (0x08C7, 0x08C7)] c

/-- Marks that Arabic letters join across. -/
def isTransparent (c : Char) : Bool := WidthTable.zero.has c && !WidthTable.unjoining.has c

/-- Khmer letters that take no column of their own after a coeng. -/
def isSubscript (c : Char) : Bool :=
  Ranges.has [(0x1780, 0x1782), (0x1784, 0x1787), (0x1789, 0x178C), (0x178E, 0x1793),
    (0x1795, 0x1798), (0x179B, 0x179D), (0x17A0, 0x17A0), (0x17A2, 0x17A2), (0x17A7, 0x17A7),
    (0x17AB, 0x17AC), (0x17AF, 0x17AF)] c

def isTifinagh (c : Char) : Bool := Ranges.has [(0x2D31, 0x2D65), (0x2D6F, 0x2D6F)] c

/-- Marks that stand inside a ligature without breaking it. -/
def isIgnored (c : Char) : Bool :=
  Ranges.has [(0x034F, 0x034F), (0x17B4, 0x17B5), (0x180B, 0x180D), (0x180F, 0x180F),
    (0xFE00, 0xFE0F), (0xE0100, 0xE01EF)] c

namespace Tail

def ofChar? (c : Char) : Option Tail :=
  if isAlef c then some alef
  else if c = '\u05DC' then some (lamed false)
  else if c = '\u1A10' then some (ya false)
  else if isSubscript c then some subscript
  else if Ranges.has [(0xA4FC, 0xA4FD)] c then some lisuTone
  else if isTifinagh c then some (tifinagh false)
  else if c.toNat = 0x10C03 then some (orkhonI false)
  else none

def join : Tail → Tail
  | lamed _ => lamed true
  | ya _ => ya true
  | tifinagh _ => tifinagh true
  | orkhonI _ => orkhonI true
  | tail => tail

/-- The letters that complete a ligature or make it longer: the columns added, and the tail
reached unless the ligature is complete. -/
def letter? (tail : Tail) (c : Char) : Option (Int × Option Tail) :=
  match tail with
  | alef => if isLam c then some (0, none) else none
  | lamed true => if c = '\u05D0' then some (0, none) else none
  | ya true => if c = '\u1A17' then some (0, some vowelYa) else none
  | vowelYa => if c = '\u1A15' then some (0, none) else none
  | subscript => if c = '\u17D2' then some (-1, none) else none
  | lisuTone => if Ranges.has [(0xA4F8, 0xA4FB)] c then some (0, none) else none
  | tifinagh joined =>
    if c = '\u2D7F' then some (1, some tifinaghPair)
    else if joined && isTifinagh c then some (0, none)
    else none
  | tifinaghPair => if isTifinagh c then some (-1, none) else none
  | orkhonI true => if c.toNat = 0x10C32 then some (0, none) else none
  | lamed false | ya false | orkhonI false => none

/-- The columns added and the tail reached when `c` stands before a tail, if it belongs to the
ligature.  Arabic letters join across every transparent mark, the other scripts across ignored
marks and joiners. -/
def before? (tail : Tail) (c : Char) : Option (Int × Option Tail) :=
  if tail = alef then
    letter? tail c <|> if isTransparent c then some (0, some tail) else none
  else if c = Emoji.joiner then some (0, some tail.join)
  else if isIgnored c then some (0, some tail)
  else letter? tail c

end Tail

end Ntfs.Ligature
