import EventQuery.Document.Hexadecimal
import EventQuery.Text.CodePoint

/-! The four forms of a TOML text: basic or literal, on one line or on several. Each reader starts
behind the opening quotes and gives the characters and what follows the closing quotes. -/

namespace EventQuery.Toml

/-- Characters that may stand in texts and comments as they are. -/
def isPlain (c : Char) : Bool := c == '\t' || (0x20 ≤ c.toNat && c.toNat != 0x7F)

def simpleEscape? : Char → Option Char
  | 'b' => some (Char.ofNat 8)
  | 't' => some '\t'
  | 'n' => some '\n'
  | 'f' => some (Char.ofNat 12)
  | 'r' => some '\r'
  | 'e' => some (Char.ofNat 27)
  | '"' => some '"'
  | '\\' => some '\\'
  | _ => none

/-- The character whose code is written in hexadecimal digits. -/
def character? (digits : List Char) : Option Char :=
  (Hexadecimal.value? digits).bind Text.character?

/-- A reading with characters put in front of the ones read. -/
def after (cs : List Char) : Option (List Char × List Char) → Option (List Char × List Char)
  | none => none
  | some (ds, rest) => some (cs ++ ds, rest)

def literal : List Char → Option (List Char × List Char)
  | '\'' :: rest => some ([], rest)
  | c :: rest => if isPlain c then after [c] (literal rest) else none
  | [] => none

def basic : List Char → Option (List Char × List Char)
  | '"' :: rest => some ([], rest)
  | '\\' :: 'x' :: a :: b :: rest => do
    after [← character? [a, b]] (basic rest)
  | '\\' :: 'u' :: a :: b :: c :: d :: rest => do
    after [← character? [a, b, c, d]] (basic rest)
  | '\\' :: 'U' :: a :: b :: c :: d :: e :: f :: g :: h :: rest => do
    after [← character? [a, b, c, d, e, f, g, h]] (basic rest)
  | '\\' :: c :: rest => do
    after [← simpleEscape? c] (basic rest)
  | c :: rest => if isPlain c then after [c] (basic rest) else none
  | [] => none

/-- The text behind a line end at its very start. -/
def dropLineEnd : List Char → List Char
  | '\n' :: rest => rest
  | '\r' :: '\n' :: rest => rest
  | cs => cs

/-- Up to two quotes may stand before the closing three. -/
def literalLines : List Char → Option (List Char × List Char)
  | '\'' :: '\'' :: '\'' :: '\'' :: '\'' :: rest => some (['\'', '\''], rest)
  | '\'' :: '\'' :: '\'' :: '\'' :: rest => some (['\''], rest)
  | '\'' :: '\'' :: '\'' :: rest => some ([], rest)
  | '\r' :: '\n' :: rest => after ['\r', '\n'] (literalLines rest)
  | c :: rest => if isPlain c || c == '\n' then after [c] (literalLines rest) else none
  | [] => none

def isLineBlank (c : Char) : Bool := c == ' ' || c == '\t'

/-- Nothing but blanks stands before the next line end. -/
def endsLine (cs : List Char) : Bool :=
  match cs.dropWhile isLineBlank with
  | '\n' :: _ => true
  | '\r' :: '\n' :: _ => true
  | _ => false

/-- A backslash at the end of a line removes the line end and all blanks and line ends up to the
next character; `skipping` says that this is going on. -/
def basicLines (skipping : Bool) : List Char → Option (List Char × List Char)
  | '"' :: '"' :: '"' :: '"' :: '"' :: rest => some (['"', '"'], rest)
  | '"' :: '"' :: '"' :: '"' :: rest => some (['"'], rest)
  | '"' :: '"' :: '"' :: rest => some ([], rest)
  | '\r' :: '\n' :: rest =>
    if skipping then basicLines true rest else after ['\r', '\n'] (basicLines false rest)
  | '\\' :: 'x' :: a :: b :: rest => do
    after [← character? [a, b]] (basicLines false rest)
  | '\\' :: 'u' :: a :: b :: c :: d :: rest => do
    after [← character? [a, b, c, d]] (basicLines false rest)
  | '\\' :: 'U' :: a :: b :: c :: d :: e :: f :: g :: h :: rest => do
    after [← character? [a, b, c, d, e, f, g, h]] (basicLines false rest)
  | '\\' :: c :: rest =>
    if endsLine (c :: rest) then basicLines true (c :: rest)
    else do after [← simpleEscape? c] (basicLines false rest)
  | c :: rest =>
    if skipping && (isLineBlank c || c == '\n') then basicLines true rest
    else if isPlain c || c == '\n' then after [c] (basicLines false rest)
    else none
  | [] => none

/-- The text that starts at a quote. -/
def text? : List Char → Option (String × List Char)
  | '"' :: '"' :: '"' :: rest => (basicLines false (dropLineEnd rest)).map fun (cs, rest) =>
    (String.ofList cs, rest)
  | '\'' :: '\'' :: '\'' :: rest => (literalLines (dropLineEnd rest)).map fun (cs, rest) =>
    (String.ofList cs, rest)
  | '"' :: rest => (basic rest).map fun (cs, rest) => (String.ofList cs, rest)
  | '\'' :: rest => (literal rest).map fun (cs, rest) => (String.ofList cs, rest)
  | _ => none

end EventQuery.Toml
