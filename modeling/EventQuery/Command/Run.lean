import EventQuery.Catalog.Demo
import EventQuery.Catalog.File
import EventQuery.Command.Arguments
import EventQuery.Compilation
import EventQuery.Dataset.Written
import EventQuery.Document.JsonWriter
import EventQuery.Editor.Diagnostic
import EventQuery.Settings.Basic

/-! Running a command: what it prints and how it ends. -/

namespace EventQuery

structure Outcome where
  exitCode : Nat
  output : String
  errors : String
deriving DecidableEq

namespace Outcome

def success (output : String) : Outcome := ⟨0, output, ""⟩

def failure (errors : String) : Outcome := ⟨1, "", errors ++ "\n"⟩

def usage : String :=
  "Usage: eeql check <FILE> [--catalog <CATALOG>] [--format text|json]\n" ++
  "       eeql compile <FILE> [--catalog <CATALOG>] [--compact] [--emit sql|dataset]\n" ++
  "       eeql events [--catalog <CATALOG>]\n" ++
  "       eeql lsp [--catalog <CATALOG>]\n"

def ofRefusal : Refusal → Outcome
  | .usage => ⟨2, "", usage⟩
  | .help => ⟨0, "", ""⟩
  | .version => ⟨0, "eeql 0.1.0\n", ""⟩

end Outcome

namespace Command

/-- A report of a problem: what it is, and where. -/
def report (source : Editor.DiagnosticSource) (message file : String) (place : Span) : String :=
  "[" ++ source.text ++ "] Error: " ++ message ++ "\n  at " ++ file ++ ":" ++ place.text

def spanValue (s : Span) : Value :=
  .record [("start_line", .number (toString s.start.line)),
    ("start_col", .number (toString s.start.character)),
    ("end_line", .number (toString s.stop.line)),
    ("end_col", .number (toString s.stop.character))]

def diagnosticValue (d : Editor.Diagnostic) : Value :=
  .record [("message", .text d.message), ("span", spanValue d.place), ("severity", .text "error"),
    ("source", .text d.source.text)]

def checkText (catalog : Catalog) (file text : String) (format : ReportFormat) : Outcome :=
  let found := Editor.diagnostics catalog text
  match format with
  | .json =>
    ⟨if found.isEmpty then 0 else 1, Json.pretty (.list (found.map diagnosticValue)) ++ "\n", ""⟩
  | .text =>
    if found.isEmpty then .success ("OK: " ++ file ++ " is valid\n")
    else .failure (Text.join "\n" (found.map fun d => report d.source d.message file d.place))

def compileText (catalog : Catalog) (layout : Sql.Layout) (product : Product) (file text : String) :
    Outcome :=
  match EventQuery.compile catalog layout text with
  | .ok (dataset, sql) =>
    match product with
    | .sql => .success (sql ++ "\n")
    | .dataset => .success (Json.pretty (dataset.toValue Literal.toValue) ++ "\n")
  | .error e =>
    match e with
    | .malformed x => .failure (report .syntactic e.message file x.place)
    | .invalid x => .failure (report .validation e.message file x.place)
    | .lowering _ => .failure ("Compilation error: " ++ e.message)

def listEvents (catalog : Catalog) : String :=
  if catalog.events.isEmpty then "No events defined.\n"
  else
    let lines := (catalog.eventNames.filterMap catalog.find?).flatMap fun e =>
      ["  - " ++ e.summary, "      table: " ++ e.table]
    Text.join "\n" ("Events:" :: lines) ++ "\n"

/-- The catalog file that a command names. -/
def catalogPath? : Command → Option String
  | .check _ catalog _ => catalog
  | .compile _ catalog _ _ => catalog
  | .events catalog => catalog
  | .serve catalog => catalog

section

variable {m : Type → Type} [Monad m] (host : Host m)

/-- The catalog that an argument names, else the one in the settings, else the built-in one. -/
def findCatalog (settings : Settings) (given : Option String) : m (Except String Catalog) := do
  let path ←
    match given with
    | some path => pure (.ok (some path))
    | none => settings.resolvedPath host
  match path with
  | .error e => return .error e.message
  | .ok none => return .ok .demo
  | .ok (some path) =>
    return (← Catalog.load host path).mapError fun e =>
      "Error loading catalog '" ++ path ++ "': " ++ e.message

/-- The settings and the catalog that a command starts with. -/
def prepare (command : Command) : m (Except String (Settings × Catalog)) := do
  match ← Settings.load host with
  | .error e => return .error ("Error loading settings: " ++ e.message)
  | .ok settings =>
    return (← findCatalog host settings command.catalogPath?).map fun catalog => (settings, catalog)

/-- What is done with the text of a file. -/
def onText (file : String) (act : String → Outcome) : m Outcome := do
  match ← host.read file with
  | .error fault => return .failure ("Error reading file '" ++ file ++ "': " ++ fault.message)
  | .ok text => return act text

def runWith (settings : Settings) (catalog : Catalog) : Command → m Outcome
  | .check file _ format => onText host file fun text => checkText catalog file text format
  | .compile file _ compact product =>
    let layout : Sql.Layout := if settings.pretty && !compact then .pretty else .compact
    onText host file fun text => compileText catalog layout product file text
  | .events _ => return .success (listEvents catalog)
  | .serve _ => return .success ""

/-- The arguments are read first, then the settings, the catalog and the file. -/
def run (args : List String) : m Outcome := do
  match Command.ofArguments args with
  | .error refusal => return .ofRefusal refusal
  | .ok command =>
    match ← prepare host command with
    | .error e => return .failure e
    | .ok (settings, catalog) => runWith host settings catalog command

end

end Command

end EventQuery
