/-! Characters by their numbers. -/

namespace EventQuery.Text

/-- The character of a code point; none for surrogates and for numbers that are too large. -/
def character? (n : Nat) : Option Char :=
  if h : n.isValidChar then some (Char.ofNatAux n h) else none

end EventQuery.Text
