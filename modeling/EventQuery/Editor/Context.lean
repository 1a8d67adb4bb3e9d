import EventQuery.Editor.Word
import EventQuery.Source.Token
import EventQuery.Text.Blank

/-! What the language expects at an offset of a text that need not parse. The context is read off
the words and the brackets in front of the offset. -/

namespace EventQuery.Editor

inductive Piece where
  | word (chars : List Char)
  | opening
  | closing
  | comma
  | other
deriving DecidableEq

/-- The words and marks of a text without blanks, comments and the contents of quotes; `skip`
characters at its front belong to a piece already read. A comment or quote may stay open. -/
def scanFrom (skip : Nat) : List Char → List Piece
  | [] => []
  | c :: cs =>
    match skip with
    | skip + 1 => scanFrom skip cs
    | 0 =>
      if Text.isBlank c then scanFrom 0 cs
      else if c = '-' && cs.head? = some '-' then
        scanFrom ((cs.takeWhile (· != '\n')).length + 1) cs
      else if c = '\'' || c = '"' then
        .other :: scanFrom ((cs.takeWhile (· != c)).length + 1) cs
      else if c = '(' then .opening :: scanFrom 0 cs
      else if c = ')' then .closing :: scanFrom 0 cs
      else if c = ',' then .comma :: scanFrom 0 cs
      else if Text.isAlphabetic c || c = '_' then
        let run := cs.takeWhile Text.isWordChar
        .word (c :: run) :: scanFrom run.length cs
      else .other :: scanFrom 0 cs

def scan (text : List Char) : List Piece := scanFrom 0 text

namespace Piece

def keyword? : Piece → Option Keyword
  | .word chars => Keyword.ofWord? chars
  | _ => none

/-- A piece that may stand in a list of entities. -/
def isListed : Piece → Bool
  | .word chars => (Keyword.ofWord? chars).isNone
  | .comma => true
  | _ => false

end Piece

inductive Context where
  /-- Nothing is written yet. -/
  | start
  /-- An event name follows, after `first` or `last` or without. -/
  | eventName (selectorTyped : Bool)
  /-- Inside the brackets of a clause, of an event that may be named; in its list of entities or
  not. -/
  | clause (event : Option String) (inUsing : Bool)
  | other
deriving DecidableEq

/-- What the pieces so far have opened. -/
structure Progress where
  depth : Nat
  /-- The event name of the clause that began last. -/
  event : Option String
  /-- The pieces since the last opening bracket outside all brackets. -/
  clause : List Piece

namespace Progress

def start : Progress := ⟨0, none, []⟩

/-- A word outside brackets starts a new clause or names its event. -/
def eventAfter (p : Progress) (chars : List Char) : Option String :=
  if p.depth ≠ 0 then p.event
  else
    match Keyword.ofWord? chars with
    | some .select | some .join => none
    | some _ => p.event
    | none => some (String.ofList chars)

def step (p : Progress) : Piece → Progress
  | .opening =>
    if p.depth = 0 then ⟨1, p.event, []⟩ else ⟨p.depth + 1, p.event, p.clause ++ [.opening]⟩
  | .closing => ⟨p.depth - 1, p.event, p.clause ++ [.closing]⟩
  | .word chars => ⟨p.depth, p.eventAfter chars, p.clause ++ [.word chars]⟩
  | piece => ⟨p.depth, p.event, p.clause ++ [piece]⟩

/-- The clause is at its list of entities. -/
def inUsing (p : Progress) : Bool :=
  p.depth = 1 &&
    match p.clause with
    | first :: rest => first.keyword? = some .usingList && rest.all (·.isListed)
    | [] => false

end Progress

def isHeader (piece : Option Piece) : Bool :=
  match piece.bind (·.keyword?) with
  | some .select | some .before | some .after => true
  | _ => false

def isSelector (piece : Option Piece) : Bool :=
  match piece.bind (·.keyword?) with
  | some .first | some .last => true
  | _ => false

/-- The context after some pieces. -/
def contextAfter (pieces : List Piece) : Context :=
  if pieces.isEmpty then .start
  else
    let progress := pieces.foldl Progress.step .start
    if 0 < progress.depth then .clause progress.event progress.inUsing
    else
      let last := pieces.getLast?
      if isHeader last then .eventName false
      else if isSelector last && isHeader pieces.dropLast.getLast? then .eventName true
      else .other

/-- The context at an offset; the fragment right before it does not count. -/
def contextAt (text : List Char) (offset : Nat) : Context :=
  contextAfter (scan (beforeWordEnd (cut offset text).1))

end EventQuery.Editor
