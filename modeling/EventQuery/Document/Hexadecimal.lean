/-! Hexadecimal digits. -/

namespace EventQuery.Hexadecimal

def digitValue? (c : Char) : Option Nat :=
  if '0' ≤ c && c ≤ '9' then some (c.toNat - '0'.toNat)
  else if 'a' ≤ c && c ≤ 'f' then some (c.toNat - 'a'.toNat + 10)
  else if 'A' ≤ c && c ≤ 'F' then some (c.toNat - 'A'.toNat + 10)
  else none

/-- The number that digits denote. -/
def value? (cs : List Char) : Option Nat :=
  cs.foldl (fun n c => do return 16 * (← n) + (← digitValue? c)) (some 0)

/-- The digit of a number below sixteen. -/
def digit (n : Nat) : Char := "0123456789abcdef".toList.getD n '0'

end EventQuery.Hexadecimal
