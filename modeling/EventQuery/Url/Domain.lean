import EventQuery.Text.Identifier
import EventQuery.Text.Letter
import EventQuery.Text.LetterCase
import EventQuery.Text.Marks
import EventQuery.Text.Split
import EventQuery.Url.Punycode

/-! Names of domains: labels divided by dots. A name is brought to small letters that have their
marks, and a label with other characters than ASCII is written in Punycode behind `xn--`.

The tables of characters are parts of those that the standard gives. Of the compatible shapes they
have those of ASCII characters that come in runs: ligatures, Roman numerals, fractions and other
single shapes, the presentation forms of Arabic and Hebrew, half-width kana and Hangul and the
compatible ideographs stay what they are. Of the characters without a meaning they bar the whole
blocks and not the single gaps in the blocks of a script. Composition leaves out the scripts that
`EventQuery.Text.Marks` names. -/

namespace EventQuery.Url.Domain

/-- Characters that names leave out: joiners of words, selectors of variants. -/
def ignoredRanges : List (Nat × Nat) := [
  (0xAD, 0xAD), (0x34F, 0x34F), (0x115F, 0x1160), (0x17B4, 0x17B5), (0x180B, 0x180F),
  (0x200B, 0x200B), (0x2060, 0x2064), (0x206A, 0x206F), (0x3164, 0x3164), (0xFE00, 0xFE0F),
  (0xFEFF, 0xFEFF), (0xFFA0, 0xFFA0), (0x1BCA0, 0x1BCA3), (0x1D173, 0x1D17A), (0xE0100, 0xE01EF)]

/-- Characters beyond ASCII that no name has: controls, blanks, marks of direction, characters for
private use and such that stand for none. Unassigned characters between those of a script are not
listed. -/
def barredRanges : List (Nat × Nat) := [
  (0x80, 0xA0), (0x600, 0x605), (0x61C, 0x61C), (0x6DD, 0x6DD), (0x70F, 0x70F), (0x890, 0x891),
  (0x8E2, 0x8E2), (0x1680, 0x1680), (0x2000, 0x200A), (0x200C, 0x200F), (0x2024, 0x2026),
  (0x2028, 0x202F), (0x205F, 0x205F), (0x2065, 0x2069), (0x2488, 0x249B), (0x2FF0, 0x2FFB),
  (0x3000, 0x3000), (0xE000, 0xF8FF), (0xFFF0, 0xFFFF), (0x110BD, 0x110BD), (0x110CD, 0x110CD),
  (0x13430, 0x1343F), (0x1FFFE, 0x1FFFF), (0x2FFFE, 0x2FFFF), (0x3347A, 0xE00FF),
  (0xE01F0, 0x10FFFF)]

/-- Letters or digits in another shape: the characters from `first` to `last` stand for `plain` and
those after it, in turns of `count`. -/
structure Shape where
  first : Nat
  last : Nat
  plain : Char
  count : Nat

/-- Raised, lowered, circled, squared, wide and mathematical shapes of ASCII characters, and no
shapes of the letters of other scripts. -/
def shapes : List Shape := [
  ⟨0x2074, 0x2079, '4', 6⟩, ⟨0x2080, 0x2089, '0', 10⟩, ⟨0x2460, 0x2468, '1', 9⟩,
  ⟨0x24B6, 0x24E9, 'a', 26⟩, ⟨0xFF01, 0xFF5E, '!', 94⟩, ⟨0x1CCD6, 0x1CCEF, 'a', 26⟩,
  ⟨0x1CCF0, 0x1CCF9, '0', 10⟩, ⟨0x1D400, 0x1D6A3, 'a', 26⟩, ⟨0x1D7CE, 0x1D7FF, '0', 10⟩,
  ⟨0x1F130, 0x1F149, 'a', 26⟩, ⟨0x1FBF0, 0x1FBF9, '0', 10⟩]

/-- The full stops of other scripts. -/
def stops : List Char := ['。', '｡']

/-- What a character of a name counts as. -/
def plain (c : Char) : List Char :=
  let n := c.toNat
  if Text.inRanges ignoredRanges n then []
  else if c ∈ stops then ['.']
  else
    match shapes.find? fun s => s.first ≤ n && n ≤ s.last with
    | some s => [(Char.ofNat (s.plain.toNat + (n - s.first) % s.count)).toLower]
    | none => Text.lowerChar c

/-- A character that a name may have once it is plain. -/
def isAllowed (c : Char) : Bool :=
  if c.toNat < Punycode.firstPoint then
    0x20 < c.toNat && c.toNat < 0x7F &&
      c ∉ ['#', '%', '/', ':', '<', '>', '?', '@', '[', '\\', ']', '^', '|']
  else !Text.inRanges barredRanges c.toNat

/-- A character that goes on a name and is no number is a mark on the one before. -/
def isMark (c : Char) : Bool :=
  Text.isNameContinue c && !Text.isNameStart c && !Text.isAlphanumeric c

/-- What a text counts as in a name. -/
def plainText (cs : List Char) : List Char := Text.compose (cs.flatMap plain)

def isAscii (cs : List Char) : Bool := cs.all fun c => c.toNat < Punycode.firstPoint

def mark : List Char := ['x', 'n', '-', '-']

/-- A label beyond ASCII that is plain and does not start with a mark. -/
def isSound (label : List Char) : Bool :=
  !isAscii label && label.all isAllowed && plainText label == label &&
    !(label.head?.map isMark).getD false

/-- A label that is already written in Punycode stands for one that needs it. -/
def isEncoded (encoded : List Char) : Bool :=
  ((Punycode.decode? encoded).map isSound).getD false

/-- The ASCII form of a plain label. -/
def label? (cs : List Char) : Option (List Char) :=
  if !isAscii cs then if isSound cs then some (mark ++ Punycode.encode cs) else none
  else if mark.isPrefixOf cs then if isEncoded (cs.drop mark.length) then some cs else none
  else some cs

/-- The ASCII form of a name. -/
def ascii? (cs : List Char) : Option (List Char) := do
  let name := plainText cs
  if name.all isAllowed then
    return ['.'].intercalate (← (Text.splitChars '.' name).mapM label?)
  else none

end EventQuery.Url.Domain
