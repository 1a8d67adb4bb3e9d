/-! Cutting a text at a separator, and joining texts with one. -/

namespace EventQuery.Text

/-- The pieces between the separators; a text without one is a single piece. -/
def splitChars (separator : Char) : List Char → List (List Char)
  | [] => [[]]
  | c :: cs =>
    if c = separator then [] :: splitChars separator cs
    else
      match splitChars separator cs with
      | [] => [[c]]
      | piece :: pieces => (c :: piece) :: pieces

def split (separator : Char) (s : String) : List String :=
  (splitChars separator s.toList).map String.ofList

def join (separator : String) : List String → String
  | [] => ""
  | [s] => s
  | s :: t :: rest => s ++ separator ++ join separator (t :: rest)

end EventQuery.Text
