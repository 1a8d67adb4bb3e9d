import EventQuery.Document.Toml.Scalar
import EventQuery.Document.Toml.Table
import EventQuery.Document.Toml.Text

/-! Reading a document from TOML text. -/

namespace EventQuery.Toml

def skipBlanks (cs : List Char) : List Char := cs.dropWhile isLineBlank

/-- The text behind blanks, line ends and comments; none if a comment has a control character.
`inComment` says whether a comment is going on. -/
def skipLines (inComment : Bool) : List Char → Option (List Char)
  | '\n' :: rest => skipLines false rest
  | '\r' :: '\n' :: rest => skipLines false rest
  | c :: rest =>
    if inComment then if isPlain c then skipLines true rest else none
    else if isLineBlank c then skipLines false rest
    else if c = '#' then skipLines true rest
    else some (c :: rest)
  | [] => some []

def isBareKeyChar (c : Char) : Bool := c.isAlphanum || c == '_' || c == '-'

def simpleKey? : List Char → Option (String × List Char)
  | '"' :: rest => (basic rest).map fun (cs, rest) => (String.ofList cs, rest)
  | '\'' :: rest => (literal rest).map fun (cs, rest) => (String.ofList cs, rest)
  | cs =>
    let key := cs.takeWhile isBareKeyChar
    if key.isEmpty then none else some (String.ofList key, cs.drop key.length)

/-- A dotted key of at most so many parts: the path before its last part, that part, and what
follows with its blanks skipped. -/
def key? : Nat → List Char → Option (List String × String × List Char)
  | 0, _ => none
  | parts + 1, cs => do
    let (part, rest) ← simpleKey? (skipBlanks cs)
    match skipBlanks rest with
    | '.' :: rest =>
      let (path, key, rest) ← key? parts rest
      return (part :: path, key, rest)
    | rest => return ([], part, rest)

/-- Keys have no more parts than this, and values are not nested deeper. -/
def nestingLimit : Nat := 80

mutual

/-- The value at the front of a text. `nesting` says how many arrays and inline tables may open
inside each other. -/
def value? (nesting : Nat) : Nat → List Char → Option (Value × List Char)
  | 0, _ => none
  | fuel + 1, cs =>
    match cs, nesting with
    | '"' :: _, _ => (text? cs).map fun (s, rest) => (.text s, rest)
    | '\'' :: _, _ => (text? cs).map fun (s, rest) => (.text s, rest)
    | '[' :: rest, nesting + 1 => do
      let (vs, rest) ← elements? nesting fuel (← skipLines false rest)
      return (.list vs, rest)
    | '\x7b' :: rest, nesting + 1 => do
      let (entries, rest) ← entries? nesting fuel [] (← skipLines false rest)
      return (.record (entriesToFields entries), rest)
    | cs, _ => scalar? cs

/-- The rest of an array, up to its end. -/
def elements? (nesting : Nat) : Nat → List Char → Option (List Value × List Char)
  | 0, _ => none
  | fuel + 1, cs =>
    match cs with
    | ']' :: rest => some ([], rest)
    | cs => do
      let (v, rest) ← value? nesting fuel cs
      match ← skipLines false rest with
      | ',' :: rest =>
        let (vs, rest) ← elements? nesting fuel (← skipLines false rest)
        return (v :: vs, rest)
      | ']' :: rest => return ([v], rest)
      | _ => none

/-- The rest of an inline table, up to its end. Its entries may go on over several lines, but not
the parts of a key. -/
def entries? (nesting : Nat) : Nat → List (String × Item) → List Char →
    Option (List (String × Item) × List Char)
  | 0, _, _ => none
  | fuel + 1, entries, cs =>
    match cs with
    | '\x7d' :: rest => some (entries, rest)
    | cs => do
      let (path, key, rest) ← key? nestingLimit cs
      let rest ← behind? ['='] (← skipLines false rest)
      let (v, rest) ← value? nesting fuel (← skipLines false rest)
      let entries ← assignAt path key v .header entries
      match ← skipLines false rest with
      | ',' :: rest => entries? nesting fuel entries (← skipLines false rest)
      | '\x7d' :: rest => return (entries, rest)
      | _ => none

end

/-- The statement at the front of a text that has no blank there. -/
def statement? (cs : List Char) : Option (Statement × List Char) := do
  match cs with
  | '[' :: '[' :: rest =>
    let (path, key, rest) ← key? nestingLimit rest
    return (.element path key, ← behind? [']'] (← behind? [']'] rest))
  | '[' :: rest =>
    let (path, key, rest) ← key? nestingLimit rest
    return (.header path key, ← behind? [']'] rest)
  | cs =>
    let (path, key, rest) ← key? nestingLimit cs
    let (v, rest) ← value? nestingLimit (2 * rest.length + 2) (skipBlanks (← behind? ['='] rest))
    return (.assignment path key v, rest)

/-- A statement fills its line but for a comment. -/
def atLineEnd (cs : List Char) : Bool :=
  match skipBlanks cs with
  | [] => true
  | '#' :: _ => true
  | cs => endsLine cs

def statements? : Nat → List Char → Option (List Statement)
  | 0, _ => none
  | fuel + 1, cs => do
    match ← skipLines false cs with
    | [] => return []
    | cs =>
      let (s, rest) ← statement? cs
      if atLineEnd rest then return s :: (← statements? fuel rest) else none

/-- The document of a TOML text; a byte order mark in front does not count. -/
def parse (s : String) : Option Value :=
  let cs :=
    match s.toList with
    | '\uFEFF' :: cs => cs
    | cs => cs
  (statements? (cs.length + 1) cs).bind build

end EventQuery.Toml
