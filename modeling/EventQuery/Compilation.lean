import EventQuery.Dataset.Emission
import EventQuery.Dataset.Lowering
import EventQuery.Query.Parser

/-! From the text of a query to its dataset and SQL. -/

namespace EventQuery

inductive CompileError where
  | malformed (e : SyntaxError Span)
  | invalid (e : Located Span Fault)
  | lowering (f : Fault)
deriving DecidableEq

namespace CompileError

def message : CompileError → String
  | .malformed e => "Syntax error: " ++ e.value.message
  | .invalid e => "Validation error: " ++ e.value.message
  | .lowering f => "Lowering error: " ++ f.message

/-- Where in the text the error is, for callers of the library: no function here asks for it. An
error of the lowering has no place. -/
def place? : CompileError → Option Span
  | .malformed e => some e.place
  | .invalid e => some e.place
  | .lowering _ => none

end CompileError

/-- The dataset of a text that parses and fits the catalog. -/
def compileDataset (catalog : Catalog) (text : String) : Except CompileError Dataset := do
  let query ← (Query.parse text).mapError .malformed
  (query.validate catalog).mapError .invalid
  (query.toDataset catalog).mapError .lowering

def compile (catalog : Catalog) (layout : Sql.Layout) (text : String) :
    Except CompileError (Dataset × String) := do
  let dataset ← compileDataset catalog text
  return (dataset, dataset.toSql layout)

end EventQuery
