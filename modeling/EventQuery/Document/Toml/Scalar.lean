import EventQuery.Document.Hexadecimal
import EventQuery.Document.Value
import EventQuery.Number.Reading

/-! The unquoted values of TOML: truth values, integers, floating-point numbers, dates and times. -/

namespace EventQuery.Toml

/-- Digits without the single underscores that may stand between two of them. -/
def grouped? (isDigit : Char → Bool) : List Char → Option (List Char)
  | [] => none
  | [c] => if isDigit c then some [c] else none
  | c :: '_' :: rest => if isDigit c then (grouped? isDigit rest).map (c :: ·) else none
  | c :: rest => if isDigit c then (grouped? isDigit rest).map (c :: ·) else none

/-- Decimal digits without idle zeros in front. -/
def whole? (cs : List Char) : Option (List Char) :=
  match grouped? Char.isDigit cs with
  | some ('0' :: _ :: _) => none
  | ds => ds

/-- Integers have up to 128 bits, with a sign if they are negative. -/
def inRange (negative : Bool) (n : Nat) : Bool :=
  if negative then n ≤ Nat.pow 2 127 else n < Nat.pow 2 128

/-- A digit of the base that is two to the power `bits`. -/
def isDigitOf (bits : Nat) (c : Char) : Bool :=
  (Hexadecimal.digitValue? c).any fun n => decide (n < Nat.pow 2 bits)

/-- The number that digits of such a base denote. -/
def powerBase? (bits : Nat) (cs : List Char) : Option Nat := do
  let ds ← grouped? (isDigitOf bits) cs
  return ds.foldl (fun n c => Nat.pow 2 bits * n + (Hexadecimal.digitValue? c).getD 0) 0

def natural? : List Char → Option Nat
  | '0' :: 'x' :: cs => powerBase? 4 cs
  | '0' :: 'o' :: cs => powerBase? 3 cs
  | '0' :: 'b' :: cs => powerBase? 1 cs
  | cs => (whole? cs).map (Numeral.digitsValue 0)

def integer? (cs : List Char) : Option Value := do
  let (negative, ds) := Numeral.splitSign cs
  let n ← if ds.length = cs.length then natural? cs else (whole? ds).map (Numeral.digitsValue 0)
  if inRange negative n then
    some (.number ((if negative then "-" else "") ++ toString n))
  else none

/-- What stands after a whole part: the places behind a point, an exponent, or both. -/
def fractionExponent? (cs : List Char) : Option (List Char) := do
  let (fraction, rest) ←
    match cs with
    | '.' :: ds => do
      let places := ds.takeWhile fun c => c.isDigit || c == '_'
      let digits ← grouped? Char.isDigit places
      some ('.' :: digits, ds.drop places.length)
    | cs => some ([], cs)
  match rest with
  | [] => if fraction.isEmpty then none else some fraction
  | c :: rest =>
    if c == 'e' || c == 'E' then
      let (negative, ds) := Numeral.splitSign rest
      let digits ← grouped? Char.isDigit ds
      some (fraction ++ 'e' :: (if negative then ['-'] else []) ++ digits)
    else none

/-- A number with a fraction or an exponent, which may not be too large to be finite, or one of the
names of infinity and not-a-number. -/
def float? (cs : List Char) : Option Value := do
  let (negative, ds) := Numeral.splitSign cs
  let name := String.ofList ds
  if name = "inf" || name = "nan" then some (.number (String.ofList cs))
  else do
    let front := ds.takeWhile fun c => c.isDigit || c == '_'
    let whole ← whole? front
    let numeral := (if negative then ['-'] else []) ++ whole ++
      (← fractionExponent? (ds.drop front.length))
    let x ← Numeral.binary64? (String.ofList numeral)
    if x.isFinite then some (.number (String.ofList numeral)) else none

/-- The number of `count` digits at the front, if it is in the range. -/
def field? (count low high : Nat) (cs : List Char) : Option (Nat × List Char) := do
  let ds := cs.take count
  let n ← Numeral.natural? ds
  if ds.length = count && low ≤ n && n ≤ high then some (n, cs.drop count) else none

/-- The text behind one of the characters. -/
def behind? (marks : List Char) : List Char → Option (List Char)
  | c :: rest => if c ∈ marks then some rest else none
  | [] => none

def isLeapYear (year : Nat) : Bool := year % 4 = 0 && (year % 100 ≠ 0 || year % 400 = 0)

def daysOfMonth (year month : Nat) : Nat :=
  if month = 2 then if isLeapYear year then 29 else 28
  else if month ∈ [4, 6, 9, 11] then 30
  else 31

/-- What follows a date. -/
def date? (cs : List Char) : Option (List Char) := do
  let (year, cs) ← field? 4 0 9999 cs
  let (month, cs) ← field? 2 1 12 (← behind? ['-'] cs)
  let (_, cs) ← field? 2 1 (daysOfMonth year month) (← behind? ['-'] cs)
  return cs

/-- What follows a time of day; a minute may have a leap second. -/
def time? (cs : List Char) : Option (List Char) := do
  let (_, cs) ← field? 2 0 23 cs
  let (_, cs) ← field? 2 0 59 (← behind? [':'] cs)
  match cs with
  | ':' :: cs =>
    let (_, cs) ← field? 2 0 60 cs
    match cs with
    | '.' :: c :: cs => if c.isDigit then some (cs.dropWhile Char.isDigit) else none
    | '.' :: [] => none
    | cs => some cs
  | cs => some cs

/-- Nothing, or the distance of a time zone. -/
def isZone : List Char → Bool
  | [] => true
  | ['Z'] => true
  | ['z'] => true
  | cs =>
    (do
      let cs ← behind? ['+', '-'] cs
      let (_, cs) ← field? 2 0 23 cs
      let (_, cs) ← field? 2 0 59 (← behind? [':'] cs)
      return cs.isEmpty).getD false

def moment? (cs : List Char) : Option Value :=
  let isMoment :=
    match date? cs with
    | some [] => true
    | some rest => (((behind? ['T', 't', ' '] rest).bind time?).map isZone).getD false
    | none => ((time? cs).map List.isEmpty).getD false
  if isMoment then some (.moment (String.ofList cs)) else none

def isScalarChar (c : Char) : Bool :=
  c.isAlphanum || c == '+' || c == '-' || c == '_' || c == '.' || c == ':'

/-- The characters of the unquoted value at the front; a blank may stand between date and time. -/
def scalarChars (cs : List Char) : List Char :=
  let front := cs.takeWhile isScalarChar
  match date? front, cs.drop front.length with
  | some [], ' ' :: c :: rest =>
    if c.isDigit then front ++ ' ' :: (c :: rest).takeWhile isScalarChar else front
  | _, _ => front

def scalar? (cs : List Char) : Option (Value × List Char) := do
  let front := scalarChars cs
  let v ←
    if front = "true".toList then some (.bool true)
    else if front = "false".toList then some (.bool false)
    else (integer? front).or ((float? front).or (moment? front))
  return (v, cs.drop front.length)

end EventQuery.Toml
