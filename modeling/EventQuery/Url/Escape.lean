import EventQuery.Document.Hexadecimal

/-! Escapes in addresses: a character that may not stand for itself is written as the bytes of its
UTF-8 form, each a percent sign and two hexadecimal digits. -/

namespace EventQuery.Url

/-- Characters that are escaped wherever they stand: controls, and all beyond ASCII. -/
def isControl (c : Char) : Bool := c.toNat < 0x20 || 0x7F ≤ c.toNat

def escapedInFragment (c : Char) : Bool := isControl c || c ∈ [' ', '"', '<', '>', '`']

/-- In the query of a special scheme, the apostrophe is escaped too. -/
def escapedInQuery (special : Bool) (c : Char) : Bool :=
  isControl c || c ∈ [' ', '"', '#', '<', '>'] || (special && c == '\'')

def escapedInPath (c : Char) : Bool :=
  escapedInFragment c || c ∈ ['#', '?', '\x7b', '\x7d']

/-- In names of users and passwords. -/
def escapedInUser (c : Char) : Bool :=
  escapedInPath c || c ∈ ['/', ':', ';', '=', '@', '[', '\\', ']', '^', '|']

def escapeByte (b : UInt8) : List Char :=
  ['%', (Hexadecimal.digit (b.toNat / 16)).toUpper, (Hexadecimal.digit (b.toNat % 16)).toUpper]

/-- The text with an escape for each character of a set. -/
def escape (escaped : Char → Bool) (cs : List Char) : List Char :=
  cs.flatMap fun c => if escaped c then (String.utf8EncodeChar c).flatMap escapeByte else [c]

/-- The bytes of a text whose escapes stand for the bytes they name. A percent sign without two
digits stands for itself. -/
def unescapedBytes : List Char → List UInt8
  | [] => []
  | '%' :: a :: b :: rest =>
    match Hexadecimal.value? [a, b] with
    | some n => n.toUInt8 :: unescapedBytes rest
    | none => '%'.toNat.toUInt8 :: unescapedBytes (a :: b :: rest)
  | c :: rest => String.utf8EncodeChar c ++ unescapedBytes rest

/-- The text behind the escapes; none if their bytes are no text. -/
def unescape? (cs : List Char) : Option (List Char) :=
  (String.fromUTF8? ⟨(unescapedBytes cs).toArray⟩).map String.toList

end EventQuery.Url
