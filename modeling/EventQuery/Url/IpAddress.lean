import EventQuery.Document.Hexadecimal
import EventQuery.Number.Reading
import EventQuery.Text.Split

/-! Addresses of machines by number: four numbers divided by dots, or eight divided by colons. -/

namespace EventQuery.Url

/-! Four numbers. -/

namespace Ipv4

/-- A number in base sixteen behind `0x`, in base eight behind `0`, else in base ten. -/
def number? : List Char → Option Nat
  | [] => none
  | '0' :: 'x' :: ds => Hexadecimal.value? ds
  | '0' :: 'X' :: ds => Hexadecimal.value? ds
  | '0' :: d :: ds =>
    if (d :: ds).all fun c => '0' ≤ c && c ≤ '7' then
      some ((d :: ds).foldl (fun n c => 8 * n + (c.toNat - '0'.toNat)) 0)
    else none
  | ds => Numeral.natural? ds

/-- The parts of a name; an empty part at its end does not count. -/
def parts (name : List Char) : List (List Char) :=
  let pieces := Text.splitChars '.' name
  if pieces.getLast? = some [] then pieces.dropLast else pieces

/-- A name whose last part is a number must be an address. -/
def isNumeric (name : List Char) : Bool :=
  match (parts name).getLast? with
  | none => false
  | some last => (!last.isEmpty && last.all Char.isDigit) || (number? last).isSome

/-- The address of a name: the last number fills all the bytes that the ones before leave. -/
def ofName? (name : List Char) : Option Nat := do
  let numbers ← (parts name).mapM number?
  let last ← numbers.getLast?
  let front := numbers.dropLast
  if front.length ≤ 3 && front.all (· ≤ 255) && last < Nat.pow 256 (4 - front.length) then
    some (front.foldr (fun n rest => n * 16777216 + rest / 256) 0 + last)
  else none

def text (address : Nat) : String :=
  Text.join "." ([16777216, 65536, 256, 1].map fun unit => toString (address / unit % 256))

end Ipv4

/-! Eight numbers. -/

namespace Ipv6

/-- One to four hexadecimal digits. -/
def piece? (ds : List Char) : Option Nat :=
  if ds.isEmpty || 4 < ds.length then none else Hexadecimal.value? ds

/-- A decimal number of one byte, without idle zeros. -/
def byte? (ds : List Char) : Option Nat := do
  let n ← Numeral.natural? ds
  if n ≤ 255 && (ds.length = 1 || ds.head? ≠ some '0') then some n else none

/-- The last two pieces may be written as four bytes. -/
def lastPieces? (cs : List Char) : Option (List Nat) :=
  match Text.splitChars '.' cs with
  | [ds] => (piece? ds).map ([·])
  | bytes => do
    let [a, b, c, d] ← bytes.mapM byte? | none
    return [256 * a + b, 256 * c + d]

def pieces? : List (List Char) → Option (List Nat)
  | [] => some []
  | [last] => lastPieces? last
  | ds :: rest => do return (← piece? ds) :: (← pieces? rest)

/-- The text in front of two colons and the text behind them. -/
def splitGap : List Char → Option (List Char × List Char)
  | ':' :: ':' :: rest => some ([], rest)
  | c :: rest => (splitGap rest).map fun (front, back) => (c :: front, back)
  | [] => none

/-- The pieces on one side of the gap, which may be none. -/
def side? (pieces : List (List Char) → Option (List Nat)) (cs : List Char) : Option (List Nat) :=
  if cs.isEmpty then some [] else pieces (Text.splitChars ':' cs)

/-- The eight pieces of an address; two colons stand for one or more pieces of zero. -/
def parse? (cs : List Char) : Option (List Nat) :=
  match splitGap cs with
  | none => do
    let all ← pieces? (Text.splitChars ':' cs)
    if all.length = 8 then some all else none
  | some (front, back) => do
    let front ← side? (List.mapM piece?) front
    let back ← side? pieces? back
    let given := front.length + back.length
    if given ≤ 7 then some (front ++ List.replicate (8 - given) 0 ++ back) else none

/-- How many zeros stand at the front. -/
def zeros (pieces : List Nat) : Nat := (pieces.takeWhile (· == 0)).length

/-- The start of the first longest run of zeros. -/
def longestZeros (pieces : List Nat) : Nat :=
  (List.range 8).foldl
    (fun best i => if zeros (pieces.drop best) < zeros (pieces.drop i) then i else best) 0

def colons (pieces : List Nat) : String :=
  Text.join ":" (pieces.map fun n => String.ofList (Nat.toDigits 16 n))

/-- The first longest run of two or more zeros is left out. -/
def text (pieces : List Nat) : String :=
  let start := longestZeros pieces
  let count := zeros (pieces.drop start)
  if 2 ≤ count then colons (pieces.take start) ++ "::" ++ colons (pieces.drop (start + count))
  else colons pieces

end Ipv6

end EventQuery.Url
