import EventQuery.Source.Token
import EventQuery.Text.Blank
import EventQuery.Text.Identifier
import EventQuery.Text.Units

/-! Cutting a text into tokens. Blanks and comments, from two dashes to the end of the line, stand
between tokens and are dropped. -/

namespace EventQuery.Source

/-- What stands at the front of a text that starts with some character. Lengths count the characters
after that first one. -/
inductive Front where
  | gap (more : Nat)
  | token (t : Token) (more : Nat)
  /-- No token: the offending character comes after `skip` others, or the text ends there. -/
  | fault (skip : Nat)
deriving DecidableEq

/-- The length of a run of digits and, behind a point, another. -/
def numeralLength (cs : List Char) : Nat :=
  let whole := (cs.takeWhile Char.isDigit).length
  match cs.drop whole with
  | '.' :: rest =>
    let places := (rest.takeWhile Char.isDigit).length
    if places = 0 then whole else whole + 1 + places
  | _ => whole

def wordToken (word : List Char) : Token :=
  match Keyword.ofWord? word with
  | some k => .keyword k
  | none => .ident (String.ofList word)

/-- A quoted text goes to the next quote of the same kind. -/
def quotedFront (quote : Char) (cs : List Char) : Front :=
  let contents := cs.takeWhile (· ≠ quote)
  if contents.length < cs.length then
    .token (.quoted (String.ofList contents)) (contents.length + 1)
  else .fault 0

/-- Two dashes start a comment, a dash and a digit a negative numeral. -/
def dashFront (cs : List Char) : Front :=
  match cs with
  | '-' :: rest => .gap (1 + (rest.takeWhile (· ≠ '\n')).length)
  | d :: _ =>
    if d.isDigit then
      let n := numeralLength cs
      .token (.number (String.ofList ('-' :: cs.take n))) n
    else .fault 1
  | [] => .fault 1

def symbolFront (c : Char) (cs : List Char) : Front :=
  match c, cs.head? with
  | '!', some '=' => .token (.comparison .ne) 1
  | '!', _ => .fault 1
  | '<', some '>' => .token (.comparison .ne) 1
  | '<', some '=' => .token (.comparison .le) 1
  | '<', _ => .token (.comparison .lt) 0
  | '>', some '=' => .token (.comparison .ge) 1
  | '>', _ => .token (.comparison .gt) 0
  | '=', _ => .token (.comparison .eq) 0
  | '(', _ => .token .lparen 0
  | ')', _ => .token .rparen 0
  | ',', _ => .token .comma 0
  | _, _ => .fault 0

def front (c : Char) (cs : List Char) : Front :=
  if Text.isBlank c then .gap 0
  else if Text.isNameStart c then
    let rest := cs.takeWhile Text.isNameContinue
    .token (wordToken (c :: rest)) rest.length
  else if c.isDigit then
    let n := numeralLength (c :: cs)
    .token (.number (String.ofList ((c :: cs).take n))) (n - 1)
  else if c = '\'' || c = '"' then quotedFront c cs
  else if c = '-' then dashFront cs
  else symbolFront c cs

/-- The complaint about the character at the front of a text, or about its end. -/
def complaintAt (offset : Nat) : List Char → SyntaxError ByteRange
  | [] => ⟨.unexpected .endOfInput, ⟨offset, offset⟩⟩
  | c :: _ => ⟨.unexpected (.char c), ⟨offset, offset + c.utf8Size⟩⟩

/-- The tokens of a text that starts at `offset`, or the first place where none can be read. -/
def lexFrom (offset : Nat) : List Char → Except (SyntaxError ByteRange) (List Lexeme)
  | [] => .ok []
  | c :: cs =>
    match front c cs with
    | .gap more => lexFrom (offset + Text.byteSize (c :: cs.take more)) (cs.drop more)
    | .token t more =>
      let stop := offset + Text.byteSize (c :: cs.take more)
      match lexFrom stop (cs.drop more) with
      | .ok lexemes => .ok (⟨t, ⟨offset, stop⟩⟩ :: lexemes)
      | .error e => .error e
    | .fault skip =>
      .error (complaintAt (offset + Text.byteSize ((c :: cs).take skip)) ((c :: cs).drop skip))
termination_by cs => cs.length
decreasing_by all_goals simp only [List.length_drop, List.length_cons]; omega

def lex (text : List Char) : Except (SyntaxError ByteRange) (List Lexeme) := lexFrom 0 text

end EventQuery.Source
