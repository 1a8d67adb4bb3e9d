import EventQuery.Number.Rounding

/-! Reading numerals. -/

namespace EventQuery.Numeral

/-- The value of a run of decimal digits read after `n`. -/
def digitsValue : Nat → List Char → Nat
  | n, [] => n
  | n, c :: cs => digitsValue (10 * n + (c.toNat - '0'.toNat)) cs

/-- A sign in front of a numeral: whether it is a minus, and what follows. -/
def splitSign : List Char → Bool × List Char
  | '-' :: cs => (true, cs)
  | '+' :: cs => (false, cs)
  | cs => (false, cs)

def natural? (cs : List Char) : Option Nat :=
  if cs.isEmpty || !cs.all Char.isDigit then none else some (digitsValue 0 cs)

/-- An integer of 64 bits: an optional sign and digits, in range. -/
def int64? (s : String) : Option Int :=
  let (negative, cs) := splitSign s.toList
  match natural? cs with
  | none => none
  | some n =>
    let i : Int := if negative then -(n : Int) else n
    if -(Nat.pow 2 63 : Nat) ≤ i && i < (Nat.pow 2 63 : Nat) then some i else none

/-- The exponent after a mantissa: nothing, or an `e` with an integer. -/
def exponent? : List Char → Option Int
  | [] => some 0
  | c :: cs =>
    if c.toLower == 'e' then
      let (negative, ds) := splitSign cs
      (natural? ds).map fun n => if negative then -(n : Int) else n
    else none

/-- An unsigned decimal: digits, a point with digits, an exponent. One of the two digit runs may be
empty. -/
def decimal? (cs : List Char) : Option Decimal :=
  let whole := cs.takeWhile Char.isDigit
  let (places, rest) :=
    match cs.dropWhile Char.isDigit with
    | '.' :: ds => (ds.takeWhile Char.isDigit, ds.dropWhile Char.isDigit)
    | rest => ([], rest)
  if whole.isEmpty && places.isEmpty then none
  else
    (exponent? rest).map fun e =>
      ⟨digitsValue 0 (whole ++ places), e - (places.length : Int)⟩

/-- A floating-point number: an optional sign, then a decimal, or infinity or not-a-number by name
in any case. -/
def binary64? (s : String) : Option Binary64 :=
  let (negative, cs) := splitSign s.toList
  match String.ofList (cs.map Char.toLower) with
  | "inf" => some (.infinite negative)
  | "infinity" => some (.infinite negative)
  | "nan" => some .nan
  | _ => (decimal? cs).map (Binary64.ofDecimal negative)

end EventQuery.Numeral
