import EventQuery.Text.Split

/-! Names of files: parts divided by slashes. -/

namespace EventQuery.Path

/-- The parts that lead somewhere: empty parts and dots do not count. -/
def parts (path : String) : List String :=
  (Text.split '/' path).filter fun part => part ≠ "" && part ≠ "."

/-- The last part, unless it leads upwards. -/
def fileName? (path : String) : Option String :=
  match (parts path).getLast? with
  | some ".." => none
  | last => last

/-- What follows the last dot of the file name. A dot in front of the whole name does not count. -/
def extension? (path : String) : Option String := do
  let name ← fileName? path
  let pieces := Text.split '.' name
  if pieces.length ≤ 1 || (pieces.length = 2 && pieces.head? = some "") then none
  else pieces.getLast?

def isAbsolute (path : String) : Bool := path.toList.head? = some '/'

/-- A path inside a directory. -/
def join (directory name : String) : String :=
  if isAbsolute name then name
  else if directory = "" || directory.toList.getLast? = some '/' then directory ++ name
  else directory ++ "/" ++ name

end EventQuery.Path
