import EventQuery.Number.Rounding

/-! The fewest decimal digits that read back to a given binary number, and of those the nearest. -/

namespace EventQuery

/-- Where an exact half goes. -/
inductive Tie where
  | even
  | up
deriving DecidableEq

namespace Binary64.Magnitude

/-- The neighbour below is half as far away as the neighbour above. -/
def narrowBelow (x : Magnitude) : Bool := x.mantissa == Nat.pow 2 52 && -1074 < x.exponent

/-- Compares `a * 10 ^ i` with `n * 2 ^ j`. -/
def compareScaled (a : Nat) (i : Int) (n : Nat) (j : Int) : Ordering :=
  compare (a * Nat.pow 10 i.toNat * Nat.pow 2 (-j).toNat)
    (n * Nat.pow 2 j.toNat * Nat.pow 10 (-i).toNat)

/-- Whether a decimal lies among the reals that round to `x`: from halfway to the neighbour below to
halfway to the neighbour above, the ends included when the mantissa is even. -/
def readsBack (x : Magnitude) (d : Decimal) : Bool :=
  let below := if x.narrowBelow then 4 * x.mantissa - 1 else 4 * x.mantissa - 2
  let above := 4 * x.mantissa + 2
  let ends := x.mantissa % 2 == 0
  let lo := compareScaled d.digits d.exponent below (x.exponent - 2)
  let hi := compareScaled d.digits d.exponent above (x.exponent - 2)
  (lo == .gt || (ends && lo == .eq)) && (hi == .lt || (ends && hi == .eq))

/-- The least `k` with `x < 10 ^ k`, for `x` not zero. -/
def decimalScale (x : Magnitude) : Int :=
  let guess := ((x.mantissa.log2 : Int) + x.exponent) * 30103 / 100000
  if compareScaled 1 guess x.mantissa x.exponent == .gt then guess
  else if compareScaled 1 (guess + 1) x.mantissa x.exponent == .gt then guess + 1
  else guess + 2

/-- The neighbour of `x` on the grid of multiples of `10 ^ grid` that reads back, if one does, and
the nearer of the two if both do. -/
def onGrid? (tie : Tie) (x : Magnitude) (grid : Int) : Option Decimal :=
  let num := x.mantissa * Nat.pow 2 x.exponent.toNat * Nat.pow 10 (-grid).toNat
  let den := Nat.pow 2 (-x.exponent).toNat * Nat.pow 10 grid.toNat
  let floor := num / den
  let down : Decimal := ⟨floor, grid⟩
  let up : Decimal := ⟨floor + 1, grid⟩
  match x.readsBack down, x.readsBack up with
  | false, false => none
  | true, false => some down
  | false, true => some up
  | true, true =>
    match compare (2 * num) ((2 * floor + 1) * den) with
    | .lt => some down
    | .gt => some up
    | .eq =>
      match tie with
      | .up => some up
      | .even => if floor % 2 == 0 then some down else some up

/-- The exact decimal value of `x`. -/
def exact (x : Magnitude) : Decimal :=
  ⟨x.mantissa * Nat.pow 2 x.exponent.toNat * Nat.pow 5 (-x.exponent).toNat, min x.exponent 0⟩

end Binary64.Magnitude

/-- Moves trailing zeros of the digits into the exponent, at most `fuel` of them. -/
def Decimal.strip : Nat → Decimal → Decimal
  | 0, d => d
  | fuel + 1, d =>
    if d.digits != 0 && d.digits % 10 == 0 then strip fuel ⟨d.digits / 10, d.exponent + 1⟩ else d

/-- The shortest decimal that reads back to `x`: the first grid wins on which a neighbour of `x`
does. Seventeen digits suffice; past them the exact value stands. -/
def Binary64.Magnitude.shortest (tie : Tie) (x : Magnitude) : Decimal :=
  if x.mantissa = 0 then ⟨0, 0⟩
  else
    let scale := x.decimalScale
    match (List.range 17).findSome? fun (n : Nat) => x.onGrid? tie (scale - 1 - (n : Int)) with
    | some d => d.strip 17
    | none => x.exact

end EventQuery
