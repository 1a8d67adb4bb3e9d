import EventQuery.Catalog.Basic
import EventQuery.Editor.Word
import EventQuery.Query.Node
import EventQuery.Query.Parser
import EventQuery.Source.Offset

/-! What is said about the word under a position. -/

namespace EventQuery.Editor

structure Hover where
  contents : String
  place : Span
deriving DecidableEq

def columnSummary? (e : Event) (column : String) : Option String :=
  (e.resolve? column).map fun resolved =>
    "column " ++ column ++ " on event " ++ e.name ++ ": " ++
      (resolved.dataType.map (·.text)).getD "identifier" ++ " (" ++ resolved.origin.text ++ ")"

def entitySummary? (e : Event) (entity : String) : Option String :=
  (e.entity? entity).map fun x =>
    "entity " ++ x.name ++ " on event " ++ e.name ++ ": matched on column " ++ x.idColumn

/-- The text for a part of a query whose clause is about an event. -/
def partSummary? (catalog : Catalog) (clauseEvent : Option String) : Part → Option String
  | .event name => (catalog.find? name).map (·.summary)
  | .selector .first => some "first: the earliest row per entity by event timestamp"
  | .selector .last => some "last: the latest row per entity by event timestamp"
  | .qualifier .before => some "before: joined rows earlier than the selected row"
  | .qualifier .after => some "after: joined rows later than the selected row"
  | .function f => some (f.text ++ ": " ++ f.description)
  | .source name => do columnSummary? (← catalog.find? (← clauseEvent)) name
  | .filterColumn name => do columnSummary? (← catalog.find? (← clauseEvent)) name
  | .entity name => do entitySummary? (← catalog.find? (← clauseEvent)) name
  | .label name => some ("output column " ++ name)
  | _ => none

/-- The innermost part of the query at the position. In a text that does not parse, the word there
if it is an event of the catalog. -/
def hover? (catalog : Catalog) (text : String) (p : Position) : Option Hover :=
  match Query.parse text with
  | .ok query => do
    let node ← query.nodeAt? p
    let contents ← partSummary? catalog (query.eventName? node.clause) node.part
    return ⟨contents, node.place⟩
  | .error _ => do
    let cs := text.toList
    let word ← wordAt? cs (Source.offset cs p)
    let event ← catalog.find? (String.ofList word.value)
    return ⟨event.summary, Source.span cs word.place⟩

end EventQuery.Editor
