import EventQuery.Text.Letter

/-! Variables in a text: `$name` and `${name}` stand for their values. -/

namespace EventQuery

inductive Segment where
  | character (c : Char)
  | reference (name : String)
deriving DecidableEq

namespace Segment

/-- The name up to the closing brace, or up to the end of the text. -/
def bracedName (cs : List Char) : List Char := cs.takeWhile (· != '\x7d')

/-- The longest run of letters, digits and underscores. -/
def plainName (cs : List Char) : List Char := cs.takeWhile Text.isWordChar

/-- The segments of a text; `skip` characters at its front belong to a segment already read. A
dollar sign without a name stands for itself. -/
def readFrom (skip : Nat) : List Char → List Segment
  | [] => []
  | c :: cs =>
    match skip with
    | skip + 1 => readFrom skip cs
    | 0 =>
      if c ≠ '$' then .character c :: readFrom 0 cs
      else
        match cs with
        | '\x7b' :: rest =>
          let name := bracedName rest
          .reference (String.ofList name) :: readFrom (name.length + 2) cs
        | _ =>
          let name := plainName cs
          if name.isEmpty then .character '$' :: readFrom 0 cs
          else .reference (String.ofList name) :: readFrom name.length cs

def read (text : String) : List Segment := readFrom 0 text.toList

/-- The text of segments, or the first variable that has no value. Values are not read again. -/
def expand (value? : String → Option String) : List Segment → Except String (List Char)
  | [] => .ok []
  | .character c :: rest => do return c :: (← expand value? rest)
  | .reference name :: rest =>
    match value? name with
    | none => .error name
    | some value => do return value.toList ++ (← expand value? rest)

end Segment

end EventQuery
