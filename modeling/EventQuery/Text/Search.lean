/-! Finding one text in another. -/

namespace EventQuery.Text

def startsWith (s start : String) : Bool := start.toList.isPrefixOf s.toList

/-- The rest of a text that starts in the given way. -/
def behind? (start s : String) : Option String :=
  if startsWith s start then some (String.ofList (s.toList.drop start.length)) else none

def containsChars (piece : List Char) : List Char → Bool
  | [] => piece.isEmpty
  | c :: cs => piece.isPrefixOf (c :: cs) || containsChars piece cs

def contains (s piece : String) : Bool := containsChars piece.toList s.toList

end EventQuery.Text
