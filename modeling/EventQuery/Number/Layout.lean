import EventQuery.Number.Shortest

/-! How the digits of a number are laid out as text. -/

namespace EventQuery

/-- The decisions of one way to write numbers. -/
structure NumberLayout where
  tie : Tie
  /-- Whether a number is written without an exponent, by the power of ten of its leading digit. -/
  positional : Int → Bool
  /-- Whole numbers end in `.0`. -/
  pointZero : Bool
  /-- An exponent that is not negative has a sign too. -/
  plusExponent : Bool

namespace NumberLayout

def zeros (n : Nat) : List Char := List.replicate n '0'

/-- `digits * 10 ^ exponent` without an exponent. -/
def layPositional (layout : NumberLayout) (digits : List Char) (exponent : Int) : List Char :=
  let point := (digits.length : Int) + exponent
  if 0 ≤ exponent then
    digits ++ zeros exponent.toNat ++ (if layout.pointZero then ['.', '0'] else [])
  else if 0 < point then
    digits.take point.toNat ++ '.' :: digits.drop point.toNat
  else
    '0' :: '.' :: zeros (-point).toNat ++ digits

/-- One digit before the point, the others after it, then the exponent. -/
def layScientific (layout : NumberLayout) (digits : List Char) (exponent : Int) : List Char :=
  let leading := (digits.length : Int) + exponent - 1
  let mantissa :=
    match digits with
    | d :: e :: rest => d :: '.' :: e :: rest
    | short => short
  mantissa ++ 'e' :: (if layout.plusExponent && 0 ≤ leading then ['+'] else [])
    ++ (toString leading).toList

def layDecimal (layout : NumberLayout) (d : Decimal) : List Char :=
  let digits := Nat.toDigits 10 d.digits
  if layout.positional ((digits.length : Int) + d.exponent - 1) then
    layout.layPositional digits d.exponent
  else layout.layScientific digits d.exponent

def sign (negative : Bool) : List Char := if negative then ['-'] else []

def write (layout : NumberLayout) : Binary64 → String
  | .nan => "NaN"
  | .infinite negative => String.ofList (sign negative ++ ['i', 'n', 'f'])
  | .finite negative rank =>
    String.ofList
      (sign negative ++ layout.layDecimal ((Binary64.magnitude rank).shortest layout.tie))

/-- Every digit in place, a whole number without a point. -/
def plain : NumberLayout where
  tie := .up
  positional _ := true
  pointZero := false
  plusExponent := false

/-- A numeral that is never taken for an integer: whole numbers end in `.0`, and a leading digit at
`10 ^ 16` or above, or below `10 ^ (-5)`, takes an exponent. -/
def literal : NumberLayout where
  tie := .even
  positional leading := -5 ≤ leading && leading < 16
  pointZero := true
  plusExponent := false

/-- The numerals of documents are literals whose exponents have a sign. -/
def document : NumberLayout := { literal with plusExponent := true }

end NumberLayout

end EventQuery
