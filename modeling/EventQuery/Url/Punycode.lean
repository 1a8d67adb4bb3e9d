import EventQuery.Text.CodePoint

/-! Punycode: a label of any characters, written in ASCII. The ASCII characters come first, then a
hyphen, then for each other character, in ascending order, how far it is from the one before. These
distances are numbers of base 36 whose digits have thresholds that adapt to the distances. -/

namespace EventQuery.Url.Punycode

/-- The digits from 0 to 35: small letters, then digits. -/
def digit (n : Nat) : Char :=
  if n < 26 then Char.ofNat ('a'.toNat + n) else Char.ofNat ('0'.toNat + (n - 26))

def digitValue? (c : Char) : Option Nat :=
  if 'a' ≤ c && c ≤ 'z' then some (c.toNat - 'a'.toNat)
  else if 'A' ≤ c && c ≤ 'Z' then some (c.toNat - 'A'.toNat)
  else if '0' ≤ c && c ≤ '9' then some (c.toNat - '0'.toNat + 26)
  else none

/-- The last digit of a distance is below the threshold of its place. -/
def threshold (place bias : Nat) : Nat :=
  if place ≤ bias then 1 else if bias + 26 ≤ place then 26 else place - bias

theorem threshold_pos (place bias : Nat) : 0 < threshold place bias := by
  unfold threshold
  split
  · omega
  · split <;> omega

/-- The place that large distances start at. -/
def startPlace (delta place : Nat) : Nat :=
  if 455 < delta then startPlace (delta / 35) (place + 36)
  else place + 36 * delta / (delta + 38)
termination_by delta

/-- The bias after a distance, when the label has `count` characters. -/
def adapt (delta count : Nat) (isFirst : Bool) : Nat :=
  let delta := if isFirst then delta / 700 else delta / 2
  startPlace (delta + delta / count) 0

def firstBias : Nat := 72

/-- The first code point beyond ASCII. -/
def firstPoint : Nat := 0x80

/-- The digits of a distance, the lowest first. -/
def digits (bias place n : Nat) : List Char :=
  let t := threshold place bias
  if n < t then [digit n]
  else digit (t + (n - t) % (36 - t)) :: digits bias (place + 36) ((n - t) / (36 - t))
termination_by n
decreasing_by
  have := threshold_pos place bias
  exact Nat.lt_of_le_of_lt (Nat.div_le_self _ _) (by omega)

/-- What has been written so far of a label. -/
structure Encoding where
  written : List Char
  delta : Nat
  bias : Nat
  count : Nat

/-- The effect of one character of the label while the code point `n` is written. -/
def Encoding.pass (basic n : Nat) (e : Encoding) (c : Char) : Encoding :=
  if c.toNat < n then { e with delta := e.delta + 1 }
  else if c.toNat = n then
    ⟨e.written ++ digits e.bias 36 e.delta, 0, adapt e.delta (e.count + 1) (e.count == basic),
      e.count + 1⟩
  else e

/-- All characters of a code point `n` are written, when the last one was `previous`. -/
def Encoding.writePoint (label : List Char) (basic previous n : Nat) (e : Encoding) : Encoding :=
  let start := { e with delta := e.delta + (n - previous) * (e.count + 1) }
  let passed := label.foldl (Encoding.pass basic n) start
  { passed with delta := passed.delta + 1 }

def Encoding.writePoints (label : List Char) (basic : Nat) :
    Nat → List Nat → Encoding → Encoding
  | _, [], e => e
  | previous, n :: rest, e =>
    writePoints label basic (n + 1) rest (e.writePoint label basic previous n)

def encode (label : List Char) : List Char :=
  let basic := label.filter fun c => c.toNat < firstPoint
  let points := ((label.map Char.toNat).filter (firstPoint ≤ ·)).mergeSort.eraseDups
  let start : Encoding := ⟨[], 0, firstBias, basic.length⟩
  basic ++ (if basic.isEmpty then [] else ['-'])
    ++ (start.writePoints label basic.length firstPoint points).written

/-- What has been read so far of a label. -/
structure Decoding where
  chars : List Char
  point : Nat
  /-- The index at which the next character goes in, as far as it is known. -/
  index : Nat
  /-- The index at the start of the distance. -/
  origin : Nat
  place : Nat
  weight : Nat
  bias : Nat

/-- A distance is complete: a character goes in. -/
def Decoding.insert? (d : Decoding) : Option Decoding := do
  let count := d.chars.length + 1
  let point := d.point + d.index / count
  let index := d.index % count
  let c ← Text.character? point
  return ⟨d.chars.take index ++ c :: d.chars.drop index, point, index + 1, index + 1, 36, 1,
    adapt (d.index - d.origin) count (d.origin == 0)⟩

def Decoding.read? (d : Decoding) (c : Char) : Option Decoding := do
  let n ← digitValue? c
  let d := { d with index := d.index + n * d.weight }
  let t := threshold d.place d.bias
  if n < t then d.insert?
  else some { d with place := d.place + 36, weight := d.weight * (36 - t) }

/-- The label that an ASCII text stands for. -/
def decode? (text : List Char) : Option (List Char) := do
  let tail := (text.reverse.takeWhile (· != '-')).reverse
  let basic := text.take (text.length - tail.length - 1)
  let done ← tail.foldlM Decoding.read? ⟨basic, firstPoint, 0, 0, 36, 1, firstBias⟩
  if done.weight = 1 then some done.chars else none

end EventQuery.Url.Punycode
