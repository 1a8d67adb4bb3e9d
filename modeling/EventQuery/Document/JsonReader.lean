import EventQuery.Document.Hexadecimal
import EventQuery.Document.Value

/-! Reading a document from JSON text. -/

namespace EventQuery.Json

def skipBlanks (cs : List Char) : List Char :=
  cs.dropWhile fun c => c == ' ' || c == '\n' || c == '\t' || c == '\r'

def simpleEscape? : Char → Option Char
  | '"' => some '"'
  | '\\' => some '\\'
  | '/' => some '/'
  | 'b' => some (Char.ofNat 8)
  | 'f' => some (Char.ofNat 12)
  | 'n' => some '\n'
  | 'r' => some '\r'
  | 't' => some '\t'
  | _ => none

/-- The rest of a text behind its opening quote: the 16-bit units or characters it is made of, and
what follows the closing quote. -/
def textUnits : List Char → Option (List Nat × List Char)
  | '"' :: rest => some ([], rest)
  | '\\' :: 'u' :: a :: b :: c :: d :: rest => do
    let unit ← Hexadecimal.value? [a, b, c, d]
    let (units, rest) ← textUnits rest
    return (unit :: units, rest)
  | '\\' :: c :: rest => do
    let c ← simpleEscape? c
    let (units, rest) ← textUnits rest
    return (c.toNat :: units, rest)
  | c :: rest =>
    if c.toNat < 0x20 then none
    else do
      let (units, rest) ← textUnits rest
      return (c.toNat :: units, rest)
  | [] => none

/-- The characters of units, two surrogates making one; none if a surrogate stands alone. -/
def pairUnits : List Nat → Option (List Char)
  | [] => some []
  | [u] => if 0xD800 ≤ u && u < 0xE000 then none else some [Char.ofNat u]
  | u :: v :: rest =>
    if 0xD800 ≤ u && u < 0xDC00 then
      if 0xDC00 ≤ v && v < 0xE000 then
        (pairUnits rest).map
          (Char.ofNat (0x10000 + (u - 0xD800) * 0x400 + (v - 0xDC00)) :: ·)
      else none
    else if 0xDC00 ≤ u && u < 0xE000 then none
    else (pairUnits (v :: rest)).map (Char.ofNat u :: ·)

/-- The rest of a text behind its opening quote; none in place of a text that is broken. -/
def text? (cs : List Char) : Option (Option String × List Char) := do
  let (units, rest) ← textUnits cs
  return ((pairUnits units).map String.ofList, rest)

def text (cs : List Char) : Option (Value × List Char) := do
  let (s, rest) ← text? cs
  return ((s.map .text).getD .brokenText, rest)

/-- The record of fields, all of which must have a name. -/
def record (fields : List (Option String × Value)) : Value :=
  match fields.mapM fun (name, v) => name.map fun name => (name, v) with
  | some fields => .record fields
  | none => .brokenRecord

/-- One or more digits, and what follows them. -/
def digits? (cs : List Char) : Option (List Char × List Char) :=
  let ds := cs.takeWhile Char.isDigit
  if ds.isEmpty then none else some (ds, cs.dropWhile Char.isDigit)

/-- A whole part without idle zeros in front. -/
def whole? : List Char → Option (List Char × List Char)
  | '0' :: rest => if (rest.head?.map Char.isDigit).getD false then none else some (['0'], rest)
  | cs => digits? cs

def fraction? : List Char → Option (List Char × List Char)
  | '.' :: rest => (digits? rest).map fun (ds, rest) => ('.' :: ds, rest)
  | cs => some ([], cs)

def exponent? : List Char → Option (List Char × List Char)
  | c :: rest =>
    if c == 'e' || c == 'E' then
      let (sign, rest) :=
        match rest with
        | '+' :: rest => (['+'], rest)
        | '-' :: rest => (['-'], rest)
        | rest => ([], rest)
      (digits? rest).map fun (ds, rest) => (c :: sign ++ ds, rest)
    else some ([], c :: rest)
  | [] => some ([], [])

def number (cs : List Char) : Option (Value × List Char) := do
  let (sign, cs) :=
    match cs with
    | '-' :: rest => (['-'], rest)
    | cs => ([], cs)
  let (whole, cs) ← whole? cs
  let (fraction, cs) ← fraction? cs
  let (exponent, cs) ← exponent? cs
  return (.number (String.ofList (sign ++ whole ++ fraction ++ exponent)), cs)

/-- The word at the front of a text, taken off. -/
def word? (word : String) (cs : List Char) : Option (List Char) :=
  if word.toList.isPrefixOf cs then some (cs.drop word.length) else none

mutual

/-- A value and what follows it. -/
def value : Nat → List Char → Option (Value × List Char)
  | 0, _ => none
  | fuel + 1, cs =>
    match skipBlanks cs with
    | '"' :: rest => text rest
    | '[' :: rest =>
      match skipBlanks rest with
      | ']' :: rest => some (.list [], rest)
      | rest => (elements fuel rest).map fun (xs, rest) => (.list xs, rest)
    | '\x7b' :: rest =>
      match skipBlanks rest with
      | '\x7d' :: rest => some (.record [], rest)
      | rest => (members fuel rest).map fun (xs, rest) => (record xs, rest)
    | 't' :: rest => (word? "rue" rest).map (.bool true, ·)
    | 'f' :: rest => (word? "alse" rest).map (.bool false, ·)
    | 'n' :: rest => (word? "ull" rest).map (.null, ·)
    | cs => number cs

/-- The elements of a list up to its end. -/
def elements : Nat → List Char → Option (List Value × List Char)
  | 0, _ => none
  | fuel + 1, cs => do
    let (v, rest) ← value fuel cs
    match skipBlanks rest with
    | ',' :: rest =>
      let (vs, rest) ← elements fuel rest
      return (v :: vs, rest)
    | ']' :: rest => return ([v], rest)
    | _ => none

/-- The fields of a record up to its end. -/
def members : Nat → List Char → Option (List (Option String × Value) × List Char)
  | 0, _ => none
  | fuel + 1, cs => do
    let '"' :: rest := skipBlanks cs | none
    let (key, rest) ← text? rest
    let ':' :: rest := skipBlanks rest | none
    let (v, rest) ← value fuel rest
    match skipBlanks rest with
    | ',' :: rest =>
      let (vs, rest) ← members fuel rest
      return ((key, v) :: vs, rest)
    | '\x7d' :: rest => return ([(key, v)], rest)
    | _ => none

end

/-- The document of a JSON text. -/
def parse (s : String) : Option Value := do
  let cs := s.toList
  let (v, rest) ← value (2 * cs.length + 2) cs
  if (skipBlanks rest).isEmpty then some v else none

end EventQuery.Json
