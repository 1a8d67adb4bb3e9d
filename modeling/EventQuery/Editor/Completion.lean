import EventQuery.Catalog.Basic
import EventQuery.Editor.Context
import EventQuery.Query.Basic
import EventQuery.Source.Offset

/-! The words that may be typed at a position, those first that the context calls for. -/

namespace EventQuery.Editor

inductive CompletionKind where
  | event
  | keyword
  | function
  | column
  | entity
deriving DecidableEq

def CompletionKind.text : CompletionKind → String
  | .event => "event"
  | .keyword => "keyword"
  | .function => "function"
  | .column => "column"
  | .entity => "entity"

structure Completion where
  label : String
  kind : CompletionKind
  detail : Option String
deriving DecidableEq

namespace Completion

def events (catalog : Catalog) : List Completion :=
  catalog.eventNames.map fun name =>
    ⟨name, .event, (catalog.find? name).map fun e => "event on " ++ e.table⟩

def ofKeywords (keywords : List Keyword) : List Completion :=
  keywords.map fun k => ⟨k.text, .keyword, none⟩

def keywords : List Completion := ofKeywords Keyword.all

def functions : List Completion :=
  Aggregate.all.map fun f => ⟨f.text, .function, some f.description⟩

def entities (e : Event) : List Completion :=
  e.entities.map fun x => ⟨x.name, .entity, some ("entity on " ++ e.name)⟩

def columns (e : Event) : List Completion :=
  e.columnNames.map fun name =>
    ⟨name, .column, some (((e.resolve? name).map (·.origin.text)).getD "")⟩

/-- Everything that the context admits. -/
def candidates (catalog : Catalog) : Context → List Completion
  | .start => events catalog ++ keywords ++ functions
  | .eventName selectorTyped =>
    events catalog ++ if selectorTyped then [] else ofKeywords [.first, .last]
  | .clause event inUsing =>
    let named :=
      match event.bind catalog.find? with
      | none => []
      | some e => if inUsing then entities e else columns e
    named ++ functions ++ keywords
  | .other => keywords ++ functions

/-- The completions with labels not seen yet, each label once. -/
def distinct (seen : List String) : List Completion → List Completion
  | [] => []
  | c :: cs =>
    if c.label ∈ seen then distinct seen cs else c :: distinct (c.label :: seen) cs

end Completion

/-- The candidates that start with the fragment before the position. -/
def completions (catalog : Catalog) (text : String) (p : Position) : List Completion :=
  let cs := text.toList
  let offset := Source.offset cs p
  let start := (fragmentAt cs offset).chars
  Completion.distinct []
    ((Completion.candidates catalog (contextAt cs offset)).filter
      fun c => start.isPrefixOf c.label.toList)

end EventQuery.Editor
