/-! Binary floating-point numbers of 64 bits, as exact data: the finite magnitudes are numbered in
ascending order, and a number's place in that order, its rank, determines mantissa and exponent. -/

namespace EventQuery

/-- The number of finite magnitudes. -/
abbrev Binary64.ranks : Nat := 2047 * Nat.pow 2 52

inductive Binary64 where
  | nan
  | infinite (negative : Bool)
  | finite (negative : Bool) (rank : Fin Binary64.ranks)
deriving DecidableEq

namespace Binary64

/-- The magnitude `mantissa * 2 ^ exponent`. -/
structure Magnitude where
  mantissa : Nat
  exponent : Int
deriving DecidableEq

/-- Below rank `2 ^ 52` the magnitudes are the multiples of the least one; from there on each run of
`2 ^ 52` ranks doubles the distance between neighbours. -/
def magnitude (rank : Nat) : Magnitude :=
  if rank < Nat.pow 2 52 then ⟨rank, -1074⟩
  else ⟨Nat.pow 2 52 + rank % Nat.pow 2 52, (rank / Nat.pow 2 52 : Nat) - 1075⟩

/-- The number of the given rank; a rank beyond the last stands for infinity. -/
def ofRank (negative : Bool) (rank : Nat) : Binary64 :=
  if h : rank < ranks then .finite negative ⟨rank, h⟩ else .infinite negative

def isFinite : Binary64 → Bool
  | .finite .. => true
  | _ => false

end Binary64

end EventQuery
