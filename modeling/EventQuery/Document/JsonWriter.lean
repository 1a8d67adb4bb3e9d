import EventQuery.Document.Hexadecimal
import EventQuery.Document.Value

/-! Writing a document as JSON on several lines, two blanks for each level. -/

namespace EventQuery.Json

def escapeChar (c : Char) : List Char :=
  match c with
  | '"' => ['\\', '"']
  | '\\' => ['\\', '\\']
  | '\n' => ['\\', 'n']
  | '\r' => ['\\', 'r']
  | '\t' => ['\\', 't']
  | c =>
    if c.toNat = 8 then ['\\', 'b']
    else if c.toNat = 12 then ['\\', 'f']
    else if c.toNat < 0x20 then
      ['\\', 'u', '0', '0', Hexadecimal.digit (c.toNat / 16), Hexadecimal.digit (c.toNat % 16)]
    else [c]

def quoted (s : String) : List Char := '"' :: s.toList.flatMap escapeChar ++ ['"']

private def lineStart (depth : Nat) : List Char := '\n' :: List.replicate (2 * depth) ' '

mutual

def write (depth : Nat) : Value → List Char
  | .null => ['n', 'u', 'l', 'l']
  | .bool true => ['t', 'r', 'u', 'e']
  | .bool false => ['f', 'a', 'l', 's', 'e']
  | .number numeral => numeral.toList
  | .text s => quoted s
  | .brokenText => quoted ""
  | .brokenRecord => ['\x7b', '\x7d']
  | .moment s => quoted s
  | .list [] => ['[', ']']
  | .list xs => '[' :: writeElements (depth + 1) xs ++ lineStart depth ++ [']']
  | .record [] => ['\x7b', '\x7d']
  | .record fields => '\x7b' :: writeFields (depth + 1) fields ++ lineStart depth ++ ['\x7d']

def writeElements (depth : Nat) : List Value → List Char
  | [] => []
  | [x] => lineStart depth ++ write depth x
  | x :: y :: rest => lineStart depth ++ write depth x ++ ',' :: writeElements depth (y :: rest)

def writeFields (depth : Nat) : List (String × Value) → List Char
  | [] => []
  | [(key, v)] => lineStart depth ++ quoted key ++ [':', ' '] ++ write depth v
  | (key, v) :: next :: rest =>
    lineStart depth ++ quoted key ++ [':', ' '] ++ write depth v
      ++ ',' :: writeFields depth (next :: rest)

end

def pretty (v : Value) : String := String.ofList (write 0 v)

end EventQuery.Json
