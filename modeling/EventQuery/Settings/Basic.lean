import EventQuery.Document.Toml.Reader
import EventQuery.Host.Basic
import EventQuery.Host.Path
import EventQuery.Settings.Variables

/-! Settings: a TOML file whose every part may be left out. -/

namespace EventQuery

structure Settings where
  /-- The catalog file; variables in it are not replaced yet. -/
  catalogPath : Option String
  logLevel : String
  pretty : Bool
deriving DecidableEq

inductive SettingsError where
  | notFound (path : String)
  | unreadable (fault : ReadFault)
  | malformed
  | missingVariable (name : String)
deriving DecidableEq

def SettingsError.message : SettingsError → String
  | .notFound path => "Config file not found: " ++ path
  | .unreadable fault => "Failed to read config file: " ++ fault.message
  | .malformed => "Failed to parse config file"
  | .missingVariable name => "Missing environment variable: " ++ name

namespace Settings

def standard : Settings where
  catalogPath := none
  logLevel := "warn"
  pretty := true

/-- The single field of a section, with a value for a section or a field that is left out. -/
def sectionField? {α : Type} (name : String) (default : α) (read : Value → Option α) (v : Value) :
    Option α := do
  (← v.fields? .toml [name]).withDefault 0 default read

def ofValue? (v : Value) : Option Settings := do
  let fields ← v.fields? .toml ["catalog", "logging", "compile"]
  let path ← fields.withDefault 0 none (sectionField? "path" none Value.asTextOrNull?)
  let level ← fields.withDefault 1 standard.logLevel
    (sectionField? "level" standard.logLevel Value.asText?)
  let pretty ← fields.withDefault 2 standard.pretty
    (sectionField? "pretty" standard.pretty Value.asBool?)
  return ⟨path, level, pretty⟩

def parse (text : String) : Except SettingsError Settings :=
  match (Toml.parse text).bind ofValue? with
  | some settings => .ok settings
  | none => .error .malformed

/-- The values of the variables in a text. -/
def expand (value? : String → Option String) (text : String) : Except SettingsError String :=
  match Segment.expand value? (Segment.read text) with
  | .ok cs => .ok (String.ofList cs)
  | .error name => .error (.missingVariable name)

section

variable {m : Type → Type} [Monad m] (host : Host m)

/-- A text with the host's variables replaced. -/
def expandOn (text : String) : m (Except SettingsError String) := do
  let names := (Segment.read text).filterMap fun
    | .reference name => some name
    | .character _ => none
  let values ← names.mapM fun name => return (name, ← host.valueOf? name)
  return expand (fun name => (values.lookup name).join) text

/-- The catalog file that the settings name. -/
def resolvedPath (s : Settings) : m (Except SettingsError (Option String)) :=
  match s.catalogPath with
  | none => return .ok none
  | some path => do return (← expandOn host path).map some

/-- The settings in a file; none if there is no such file. -/
def readFile? (path : String) : m (Option (Except SettingsError Settings)) := do
  match ← host.read path with
  | .ok text => return some (parse text)
  | .error fault => return if fault.isAbsence then none else some (.error (.unreadable fault))

/-- The settings file in the user's own directory. -/
def userFile? : m (Option String) := do
  let directory ←
    match ← host.valueOf? "XDG_CONFIG_HOME" with
    | some path => if Path.isAbsolute path then pure (some path) else homeConfig
    | none => homeConfig
  return directory.map fun path => Path.join (Path.join path "eeql") "config.toml"
where
  homeConfig : m (Option String) := do
    match ← host.valueOf? "HOME" with
    | none => return none
    | some home => return if home = "" then none else some (Path.join home ".config")

/-- The file that `EEQL_CONFIG` names, which must be there; else `eeql.toml`, else the user's file,
else the standard settings. -/
def load : m (Except SettingsError Settings) := do
  match ← host.valueOf? "EEQL_CONFIG" with
  | some path => return (← readFile? host path).getD (.error (.notFound path))
  | none =>
    match ← readFile? host "eeql.toml" with
    | some result => return result
    | none =>
      match ← userFile? host with
      | none => return .ok standard
      | some path => return (← readFile? host path).getD (.ok standard)

end

end Settings

end EventQuery
