import EventQuery.Text.Split
import EventQuery.Url.Escape

/-! The path of an address. Dots in it are steps: one stays, two go back. -/

namespace EventQuery.Url

inductive Path where
  /-- Segments, each behind a slash. -/
  | segments (parts : List (List Char))
  /-- A text without a slash in front, which has no segments. -/
  | plain (text : List Char)
deriving DecidableEq

namespace Path

def chars : Path → List Char
  | .segments parts => parts.flatMap ('/' :: ·)
  | .plain text => text

/-- A dot, or its escape. -/
def dot? : List Char → Option (List Char)
  | '.' :: rest => some rest
  | '%' :: '2' :: c :: rest => if c.toLower = 'e' then some rest else none
  | _ => none

def isStay (segment : List Char) : Bool := dot? segment = some []

def isBack (segment : List Char) : Bool := (dot? segment).bind dot? = some []

/-- The letter of a drive, as some machines begin their paths. -/
def isDrive : List Char → Bool
  | [c, mark] => c.isAlpha && (mark == ':' || mark == '|')
  | _ => false

/-- A step back from a list of segments; a drive stays. -/
def back (done : List (List Char)) : List (List Char) :=
  if (done.getLast?.map isDrive).getD false then done else done.dropLast

/-- A segment at the end of others. The drive that a file's path starts with ends in a colon. -/
def append (isFile : Bool) (done : List (List Char)) (segment : List Char) : List (List Char) :=
  let segment := escape escapedInPath segment
  if isFile && done.all List.isEmpty && isDrive segment then done ++ [segment.take 1 ++ [':']]
  else done ++ [segment]

/-- The segments after all steps are made, behind those already done. A step at the end leaves an
empty segment. -/
def resolve (isFile : Bool) (done : List (List Char)) : List (List Char) → List (List Char)
  | [] => done
  | segment :: rest =>
    let ending := if rest.isEmpty then [[]] else []
    if isBack segment then resolve isFile (back done ++ ending) rest
    else if isStay segment then resolve isFile (done ++ ending) rest
    else resolve isFile (append isFile done segment) rest

/-- The path that is written behind a slash. -/
def ofSegments (cs : List Char) : Path := .segments (resolve false [] (Text.splitChars '/' cs))

/-- The segments without the empty ones in front, but for the last of all. -/
def dropEmpty : List (List Char) → List (List Char)
  | [] :: segment :: rest => dropEmpty (segment :: rest)
  | parts => parts

/-- The path of a file; slashes in front count as one. -/
def fileSegments (cs : List Char) : List (List Char) :=
  dropEmpty (resolve true [] (Text.splitChars '/' cs))

end Path

end EventQuery.Url
