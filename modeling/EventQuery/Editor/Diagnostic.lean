import EventQuery.Query.Parser
import EventQuery.Query.Validation

/-! What is wrong with a text: its first syntax error, else the first place where it does not fit
the catalog. -/

namespace EventQuery.Editor

inductive DiagnosticSource where
  | syntactic
  | validation
deriving DecidableEq

def DiagnosticSource.text : DiagnosticSource → String
  | .syntactic => "syntax"
  | .validation => "validation"

structure Diagnostic where
  source : DiagnosticSource
  message : String
  place : Span
deriving DecidableEq

def diagnostics (catalog : Catalog) (text : String) : List Diagnostic :=
  match Query.parse text with
  | .error e => [⟨.syntactic, e.value.message, e.place⟩]
  | .ok query =>
    match query.validate catalog with
    | .error e => [⟨.validation, e.value.message, e.place⟩]
    | .ok () => []

end EventQuery.Editor
