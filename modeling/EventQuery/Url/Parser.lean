import EventQuery.Number.Reading
import EventQuery.Url.Basic

/-! Reading an address. -/

namespace EventQuery.Url

/-- The text without blanks and controls at its ends, and without tabs and line ends inside. -/
def clean (cs : List Char) : List Char :=
  let isEdge (c : Char) : Bool := c.toNat ≤ 0x20
  ((cs.dropWhile isEdge).reverse.dropWhile isEdge).reverse.filter
    fun c => c ∉ ['\t', '\n', '\r']

/-- The text in front of a mark, and what stands behind it if it is there. -/
def cut (mark : Char) (cs : List Char) : List Char × Option (List Char) :=
  let front := cs.takeWhile (· != mark)
  (front, (cs.drop front.length).tail?)

def isSchemeChar (c : Char) : Bool := c.isAlphanum || c == '+' || c == '-' || c == '.'

/-- A letter and what may follow it, up to a colon. -/
def scheme? (cs : List Char) : Option (String × List Char) :=
  let name := cs.takeWhile isSchemeChar
  match (name.head?.map Char.isAlpha).getD false, cs.drop name.length with
  | true, ':' :: rest => some (String.ofList (name.map Char.toLower), rest)
  | _, _ => none

/-- The text behind the last mark, and the text in front of it if the mark is there. -/
def cutLast (mark : Char) (cs : List Char) : Option (List Char) × List Char :=
  let (back, front) := cut mark cs.reverse
  (front.map List.reverse, back.reverse)

/-- A user and, if it is not empty, a password. -/
def user (cs : List Char) : List Char :=
  let (name, password) := cut ':' cs
  escape escapedInUser name ++
    match password with
    | none => []
    | some [] => []
    | some password => ':' :: escape escapedInUser password

/-- The host at the front of a text, up to a colon that is not between brackets, and what stands
behind the colon. -/
def splitPortNumber (bracketed : Bool) : List Char → List Char × Option (List Char)
  | [] => ([], none)
  | c :: rest =>
    if c = ':' && !bracketed then ([], some rest)
    else
      let bracketed := if c = '[' then true else if c = ']' then false else bracketed
      let (host, number) := splitPortNumber bracketed rest
      (c :: host, number)

/-- The number behind a host, none if it is the one that the scheme has anyway. -/
def portNumber? (scheme : String) (digits : Option (List Char)) : Option (Option Nat) :=
  match digits with
  | none => some none
  | some [] => some none
  | some ds => do
    let n ← Numeral.natural? ds
    if 65535 < n then none else return if defaultPortNumber? scheme = some n then none else some n

/-- Only other than special schemes do without a host, and then without a user and a number. -/
def authority? (scheme : String) (cs : List Char) : Option Authority := do
  let (info, machine) := cutLast '@' cs
  let given := (info.map user).getD []
  let (host, digits) := splitPortNumber false machine
  if host.isEmpty then
    if isSpecial scheme || !given.isEmpty || info = some [] || digits.isSome then none
    else return ⟨[], .name "", none⟩
  else return ⟨given, ← HostName.parse? (isSpecial scheme) host, ← portNumber? scheme digits⟩

/-- An authority and the path behind it. -/
def machineParts? (scheme : String) (cs : List Char) : Option (Option Authority × Path) := do
  let front := cs.takeWhile (· != '/')
  let authority ← authority? scheme front
  match cs.drop front.length with
  | [] => return (some authority, if isSpecial scheme then .segments [[]] else .segments [])
  | _ :: path => return (some authority, .ofSegments path)

/-- The machine of a file; the own machine has no name. -/
def fileHost? (cs : List Char) : Option HostName :=
  if cs.isEmpty then some (.name "")
  else do
    let host ← HostName.parse? true cs
    return if host = .name "localhost" then .name "" else host

def fileAuthority (host : HostName) : Authority := ⟨[], host, none⟩

/-- The machine and the path of a file. A drive is no machine, and a path that starts with one is
on the own machine. -/
def fileParts? : List Char → Option (Option Authority × Path)
  | '/' :: '/' :: cs => do
    let front := cs.takeWhile (· != '/')
    if Path.isDrive front then ownFile cs
    else
      let path := Path.fileSegments (cs.drop front.length)
      let host ← fileHost? front
      let onDrive := (path.head?.map Path.isDrive).getD false
      return (some (fileAuthority (if onDrive then .name "" else host)), .segments path)
  | cs => ownFile cs
where
  ownFile (cs : List Char) : Option (Option Authority × Path) :=
    some (some (fileAuthority (.name "")), .segments (Path.fileSegments cs))

/-- Special schemes take a backslash for a slash. -/
def withSlashes (cs : List Char) : List Char := cs.map fun c => if c = '\\' then '/' else c

/-- Authority and path, which stand between the scheme and the query. -/
def parts? (scheme : String) (cs : List Char) : Option (Option Authority × Path) :=
  if scheme = "file" then fileParts? (withSlashes cs)
  else if isSpecial scheme then machineParts? scheme ((withSlashes cs).dropWhile (· == '/'))
  else
    match cs with
    | '/' :: '/' :: rest => machineParts? scheme rest
    | '/' :: rest => some (none, .ofSegments rest)
    | cs => some (none, .plain (escape isControl cs))

/-- The address that a text stands for. -/
def parse? (s : String) : Option Url := do
  let (cs, fragment) := cut '#' (clean s.toList)
  let (cs, query) := cut '?' cs
  let (scheme, rest) ← scheme? cs
  let (authority, path) ← parts? scheme rest
  return ⟨scheme, authority, path, query.map (escape (escapedInQuery (isSpecial scheme))),
    fragment.map (escape escapedInFragment)⟩

end EventQuery.Url
