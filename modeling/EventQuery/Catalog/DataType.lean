/-! The types of event attributes. -/

namespace EventQuery

inductive DataType where
  | integer
  | float
  | string
  | date
  | time
  | timestamp
  | boolean
deriving DecidableEq

namespace DataType

def text : DataType → String
  | .integer => "integer"
  | .float => "float"
  | .string => "string"
  | .date => "date"
  | .time => "time"
  | .timestamp => "timestamp"
  | .boolean => "boolean"

def all : List DataType := [.integer, .float, .string, .date, .time, .timestamp, .boolean]

/-- The type whose canonical name is exactly this. -/
def ofText? (name : String) : Option DataType := all.find? (·.text == name)

/-- Every accepted name with its type. -/
def names : List (String × DataType) :=
  all.map (fun t => (t.text, t)) ++
    [("int", .integer), ("double", .float), ("text", .string), ("bool", .boolean)]

/-- The type of a canonical or short name, in any case of the ASCII letters. -/
def ofName? (name : String) : Option DataType :=
  names.lookup (String.ofList (name.toList.map Char.toLower))

def isNumeric : DataType → Bool
  | .integer | .float => true
  | _ => false

end DataType

end EventQuery
