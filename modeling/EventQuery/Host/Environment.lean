import EventQuery.Text.Search

/-! The variables that a program is given. -/

namespace EventQuery.Host

/-- Variables with their values, the first of a name before the later ones. -/
structure Environment where
  entries : List (String × String)

namespace Environment

/-- The text behind the name and an equals sign, in the entry written as `name=value`. -/
def valueIn? (name : String) (entry : String × String) : Option String :=
  Text.behind? (name ++ "=") (entry.1 ++ "=" ++ entry.2)

/-- The value of a name is what follows the name and an equals sign in the first entry that starts
so. The name may thus reach into a value, up to an equals sign there. -/
def valueOf? (e : Environment) (name : String) : Option String :=
  if name = "" then none else e.entries.findSome? (valueIn? name)

end Environment

end EventQuery.Host
