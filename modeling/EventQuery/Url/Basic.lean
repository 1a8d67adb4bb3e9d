import EventQuery.Url.HostName
import EventQuery.Url.Path

/-! Addresses of documents. Two addresses are the same document if they have the same text, and the
reading of an address brings it to the form in which it is written. -/

namespace EventQuery

/-- Who is asked at which machine. -/
structure Url.Authority where
  /-- The user, with a password behind a colon. -/
  user : List Char
  host : Url.HostName
  portNumber : Option Nat
deriving DecidableEq

structure Url where
  scheme : String
  authority : Option Url.Authority
  path : Url.Path
  query : Option (List Char)
  fragment : Option (List Char)
deriving DecidableEq

namespace Url

def Authority.chars (a : Authority) : List Char :=
  (if a.user.isEmpty then [] else a.user ++ ['@']) ++ a.host.text.toList
    ++ (a.portNumber.map fun n => ':' :: (toString n).toList).getD []

/-- What stands between scheme and path. A path that starts with two slashes is kept apart from
them by a dot. -/
def front (u : Url) : List Char :=
  match u.authority with
  | some a => '/' :: '/' :: a.chars
  | none => if ['/', '/'].isPrefixOf u.path.chars then ['/', '.'] else []

/-- A part that may be missing, behind its mark. -/
def marked (mark : Char) (part : Option (List Char)) : List Char := (part.map (mark :: ·)).getD []

def text (u : Url) : String :=
  String.ofList (u.scheme.toList ++ ':' :: u.front ++ u.path.chars
    ++ marked '?' u.query ++ marked '#' u.fragment)

/-- The number behind the host that a scheme has if none is given. -/
def defaultPortNumber? : String → Option Nat
  | "http" => some 80
  | "ws" => some 80
  | "https" => some 443
  | "wss" => some 443
  | "ftp" => some 21
  | _ => none

/-- Schemes of files and of machines in the net, whose addresses have the most rules. -/
def isSpecial (scheme : String) : Bool := scheme = "file" || (defaultPortNumber? scheme).isSome

end Url

end EventQuery
