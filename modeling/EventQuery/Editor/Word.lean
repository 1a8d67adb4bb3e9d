import EventQuery.Source.Position
import EventQuery.Text.Letter
import EventQuery.Text.Units

/-! The word at a byte offset of a text. An offset inside a character stands for the start of that
character, an offset past the end for the end. -/

namespace EventQuery.Editor

/-- The characters in front of an offset, and those from it on. -/
def cut : Nat → List Char → List Char × List Char
  | _, [] => ([], [])
  | offset, c :: cs =>
    if c.utf8Size ≤ offset then
      let (before, after) := cut (offset - c.utf8Size) cs
      (c :: before, after)
    else ([], c :: cs)

/-- The longest run of word characters at the end of a text. -/
def wordEnd (cs : List Char) : List Char := (cs.reverse.takeWhile Text.isWordChar).reverse

/-- The text in front of the word that ends at the end. -/
def beforeWordEnd (cs : List Char) : List Char := cs.take (cs.length - (wordEnd cs).length)

structure Fragment where
  chars : List Char
  /-- The offset where the fragment starts. -/
  start : Nat
deriving DecidableEq

/-- The word characters right before an offset. -/
def fragmentAt (text : List Char) (offset : Nat) : Fragment :=
  let before := (cut offset text).1
  ⟨wordEnd before, Text.byteSize (beforeWordEnd before)⟩

/-- The word that contains or touches an offset. -/
def wordAt? (text : List Char) (offset : Nat) : Option (Located ByteRange (List Char)) :=
  let (before, after) := cut offset text
  let word := wordEnd before ++ after.takeWhile Text.isWordChar
  let start := Text.byteSize (beforeWordEnd before)
  if word.isEmpty then none else some ⟨word, ⟨start, start + Text.byteSize word⟩⟩

end EventQuery.Editor
