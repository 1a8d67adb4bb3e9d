import EventQuery.Source.Position
import EventQuery.Text.Units

/-! Byte offsets and positions of one text, converted both ways. A line ends before its line feed,
and the carriage return in front of it is no column of the line. -/

namespace EventQuery.Source

/-- The position of an offset, counted on from `line` and `character`. An offset inside a character
stands for the start of that character, an offset past the end for the end. -/
def positionFrom (line character : Nat) : List Char → Nat → Position
  | [], _ => ⟨line, character⟩
  | c :: cs, offset =>
    if offset < c.utf8Size then ⟨line, character⟩
    else if c = '\n' then positionFrom (line + 1) 0 cs (offset - c.utf8Size)
    else positionFrom line (character + Text.unitsOf c) cs (offset - c.utf8Size)

def position (text : List Char) (offset : Nat) : Position := positionFrom 0 0 text offset

def span (text : List Char) (r : ByteRange) : Span := ⟨position text r.start, position text r.stop⟩

/-- The text from the given line on, with the offset where that line starts; none past the last
line. -/
def skipLines (start : Nat) : Nat → List Char → Option (Nat × List Char)
  | 0, cs => some (start, cs)
  | _ + 1, [] => none
  | n + 1, c :: cs =>
    if c = '\n' then skipLines (start + c.utf8Size) n cs
    else skipLines (start + c.utf8Size) (n + 1) cs

/-- The first line without its end. -/
def firstLine (cs : List Char) : List Char :=
  let line := cs.takeWhile (· ≠ '\n')
  if line.getLast? = some '\r' then line.dropLast else line

/-- The bytes in front of the first character that starts at or after a column. -/
def columnOffset : List Char → Nat → Nat
  | [], _ => 0
  | c :: cs, character =>
    if character = 0 then 0 else c.utf8Size + columnOffset cs (character - Text.unitsOf c)

/-- The offset of a position. Columns past the end of a line stand for its end, lines past the last
for the end of the text. -/
def offset (text : List Char) (p : Position) : Nat :=
  match skipLines 0 p.line text with
  | none => Text.byteSize text
  | some (start, rest) => start + columnOffset (firstLine rest) p.character

end EventQuery.Source
