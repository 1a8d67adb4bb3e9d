import EventQuery.Url.Domain
import EventQuery.Url.Escape
import EventQuery.Url.IpAddress

/-! The machine that an address names. -/

namespace EventQuery.Url

inductive HostName where
  /-- A name; the empty one stands for no machine. -/
  | name (text : String)
  | ipv4 (address : Nat)
  | ipv6 (pieces : List Nat)
deriving DecidableEq

namespace HostName

def text : HostName → String
  | .name text => text
  | .ipv4 address => Ipv4.text address
  | .ipv6 pieces => "[" ++ Ipv6.text pieces ++ "]"

/-- The pieces of an address between brackets. -/
def bracketed? (cs : List Char) : Option HostName :=
  if cs.getLast? = some ']' then (Ipv6.parse? cs.dropLast).map .ipv6 else none

/-- The name of a domain, or an address; escapes in it count as what they stand for. -/
def ofDomain? (cs : List Char) : Option HostName := do
  let name ← Domain.ascii? (← unescape? cs)
  if name.isEmpty then none
  else if Ipv4.isNumeric name then (Ipv4.ofName? name).map .ipv4
  else return .name (String.ofList name)

/-- Characters that no name has, whatever its scheme. -/
def isBarred (c : Char) : Bool :=
  c.toNat = 0 || c ∈ [' ', '#', '/', ':', '<', '>', '?', '@', '[', '\\', ']', '^', '|']

/-- Any name, as it is written. -/
def ofText? (cs : List Char) : Option HostName :=
  if cs.any isBarred then none else some (.name (String.ofList (escape isControl cs)))

/-- A host of a special scheme is a domain; others are names of any kind. -/
def parse? (special : Bool) : List Char → Option HostName
  | '[' :: cs => bracketed? cs
  | cs => if special then ofDomain? cs else ofText? cs

end HostName

end EventQuery.Url
