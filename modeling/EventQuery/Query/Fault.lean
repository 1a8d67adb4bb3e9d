import EventQuery.Query.Basic

/-! Why a well-formed query does not fit a catalog, or cannot be compiled. -/

namespace EventQuery

inductive Fault where
  | unknownEvent (event : String)
  | missingSelector (event : String)
  | unknownColumn (event column : String)
  | unknownEntity (event entity : String)
  | noDefaultEntity (event : String)
  | noPartitionEntity (event : String)
  | noJoinKey (event : String)
  | aggregationInSelect (event label : String)
  | ungroupedColumn (event label : String)
  | nonFiniteLiteral (literal : Literal)
  | reservedLabel (label : String)
deriving DecidableEq

/-- Labels that start with this are kept for the helper columns of the generated SQL. -/
def reservedStart : String := "__eeql_"

def isReserved (label : String) : Bool := reservedStart.toList.isPrefixOf label.toList

private def quote (name : String) : String := "`" ++ name ++ "`"

def Fault.message : Fault → String
  | .unknownEvent event => "Unknown event " ++ quote event
  | .missingSelector event => "event " ++ quote event ++ " must specify a selector (first/last)"
  | .unknownColumn event column => "Unknown column " ++ quote column ++ " on event " ++ quote event
  | .unknownEntity event entity => "Unknown entity " ++ quote entity ++ " on event " ++ quote event
  | .noDefaultEntity event =>
    "join on " ++ quote event ++ " needs a using clause: event has no default entity"
  | .noPartitionEntity event => "Event " ++ quote event ++ " has no entity to partition by"
  | .noJoinKey event => "join on " ++ quote event ++ " has no key entity"
  | .aggregationInSelect event label =>
    "select on " ++ quote event ++ " does not support aggregated column " ++ quote label
  | .ungroupedColumn event label =>
    "join on " ++ quote event ++ " requires aggregated column for " ++ quote label ++
      " when no selector is specified"
  | .nonFiniteLiteral literal =>
    "Filter literal " ++ quote literal.valueText ++ " is not a finite number"
  | .reservedLabel label =>
    "alias " ++ quote label ++ " uses the reserved prefix " ++ quote reservedStart

end EventQuery
