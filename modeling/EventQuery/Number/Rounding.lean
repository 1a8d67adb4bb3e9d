import EventQuery.Number.Binary64

/-! Rounding a decimal to the nearest binary number, ties to the even mantissa, in exact
arithmetic. -/

namespace EventQuery

/-- The decimal `digits * 10 ^ exponent`. -/
structure Decimal where
  digits : Nat
  exponent : Int
deriving DecidableEq

namespace Decimal

def numerator (d : Decimal) : Nat := d.digits * Nat.pow 10 d.exponent.toNat

def denominator (d : Decimal) : Nat := Nat.pow 10 (-d.exponent).toNat

end Decimal

/-- The quotient rounded to nearest; a half goes to the even neighbour. -/
def roundQuotient (num den : Nat) : Nat :=
  let q := num / den
  let twice := 2 * (num % den)
  if twice < den || (twice == den && q % 2 == 0) then q else q + 1

namespace Binary64

/-- The exponent of the greatest power of two that is at most `num / den`, both positive. -/
def binaryExponent (num den : Nat) : Int :=
  let e : Int := (num.log2 : Int) - (den.log2 : Int)
  if den * Nat.pow 2 e.toNat ≤ num * Nat.pow 2 (-e).toNat then e else e - 1

/-- The rank of the magnitude nearest to `num / den`, both positive. -/
def nearestRank (num den : Nat) : Nat :=
  let q := max (binaryExponent num den - 52) (-1074)
  (q + 1074).toNat * Nat.pow 2 52 +
    roundQuotient (num * Nat.pow 2 (-q).toNat) (den * Nat.pow 2 q.toNat)

/-- The binary number nearest to a decimal with a sign. Decimals far outside the range are infinite
or zero without being computed. -/
def ofDecimal (negative : Bool) (d : Decimal) : Binary64 :=
  if d.digits = 0 || d.exponent < -400 - d.digits.log2 then ofRank negative 0
  else if 400 < d.exponent then .infinite negative
  else ofRank negative (nearestRank d.numerator d.denominator)

end Binary64

end EventQuery
