import EventQuery.Text.Search

/-! The arguments of the command line. They are read from left to right, and the first that is wrong
or asks for help decides. -/

namespace EventQuery

inductive ReportFormat where
  | text
  | json
deriving DecidableEq

/-- What a compilation prints. -/
inductive Product where
  | sql
  | dataset
deriving DecidableEq

inductive Command where
  | check (file : String) (catalog : Option String) (format : ReportFormat)
  | compile (file : String) (catalog : Option String) (compact : Bool) (product : Product)
  | events (catalog : Option String)
  | serve (catalog : Option String)
deriving DecidableEq

/-- Why there is no command to run. -/
inductive Refusal where
  | usage
  | help
  | version
deriving DecidableEq

/-- An option with its names; a flag takes no value. -/
structure CommandOption where
  long : String
  short : Option Char
  isFlag : Bool
  /-- The values that it takes. -/
  accepts : String → Bool

/-- A subcommand: whether it takes a file, and its options. -/
structure Subcommand where
  takesFile : Bool
  options : List CommandOption

namespace Arguments

structure Given where
  file : Option String
  values : List (String × String)
deriving DecidableEq

/-- An option is given once, with a value that it takes. -/
def addValue (given : Given) (o : CommandOption) (value : String) : Except Refusal Given :=
  if o.accepts value && (given.values.lookup o.long).isNone then
    .ok { given with values := given.values ++ [(o.long, value)] }
  else .error .usage

def addFile (s : Subcommand) (given : Given) (file : String) : Except Refusal Given :=
  if s.takesFile && given.file.isNone && file ≠ "" then .ok { given with file := some file }
  else .error .usage

/-- What an argument is. -/
inductive Kind where
  /-- All further arguments are files. -/
  | escape
  /-- An option by its long name, with a value behind an equals sign. -/
  | long (name : String) (value : Option String)
  /-- An option by one letter, with a value right behind it. -/
  | short (c : Char) (value : Option String)
  | plain

def longKind (cs : List Char) : Kind :=
  let name := cs.takeWhile (· != '=')
  .long (String.ofList name)
    (match cs.drop name.length with
    | _ :: value => some (String.ofList value)
    | [] => none)

def kind (arg : String) : Kind :=
  match arg.toList with
  | ['-', '-'] => .escape
  | '-' :: '-' :: cs => longKind cs
  | '-' :: c :: '=' :: cs => .short c (some (String.ofList cs))
  | ['-', c] => .short c none
  | '-' :: c :: cs => .short c (some (String.ofList cs))
  | _ => .plain

def isPlain (arg : String) : Bool :=
  match kind arg with
  | .plain => true
  | _ => false

/-- The option that an argument names, with the value that came with it. -/
def named (s : Subcommand) : Kind → Except Refusal (CommandOption × Option String)
  | .long "help" none => .error .help
  | .long name value =>
    match s.options.find? (·.long == name) with
    | some o => .ok (o, value)
    | none => .error .usage
  | .short 'h' _ => .error .help
  | .short c value =>
    match s.options.find? (·.short == some c) with
    | some o => .ok (o, value)
    | none => .error .usage
  | _ => .error .usage

def readFiles (s : Subcommand) (given : Given) (args : List String) : Except Refusal Given :=
  args.foldlM (addFile s) given

def read (s : Subcommand) (given : Given) : List String → Except Refusal Given
  | [] => .ok given
  | arg :: rest =>
    match kind arg with
    | .escape => readFiles s given rest
    | .plain => do read s (← addFile s given arg) rest
    | kind => do
      let (o, value) ← named s kind
      match value with
      | some value => if o.isFlag then .error .usage else read s (← addValue given o value) rest
      | none =>
        if o.isFlag then read s (← addValue given o "") rest
        else
          match rest with
          | value :: rest =>
            if isPlain value then read s (← addValue given o value) rest else .error .usage
          | [] => .error .usage

def catalogOption : CommandOption := ⟨"catalog", some 'c', false, (· ≠ "")⟩

def formatOption : CommandOption := ⟨"format", some 'f', false, (["text", "json"].contains ·)⟩

def emitOption : CommandOption := ⟨"emit", some 'e', false, (["sql", "dataset"].contains ·)⟩

def compactOption : CommandOption := ⟨"compact", none, true, fun _ => true⟩

def requiredFile (given : Given) : Except Refusal String :=
  match given.file with
  | some file => .ok file
  | none => .error .usage

def start : Given := ⟨none, []⟩

def catalog (given : Given) : Option String := given.values.lookup "catalog"

def check (args : List String) : Except Refusal Command := do
  let given ← read ⟨true, [catalogOption, formatOption]⟩ start args
  let format := if given.values.lookup "format" = some "json" then .json else .text
  return .check (← requiredFile given) (catalog given) format

def compile (args : List String) : Except Refusal Command := do
  let given ← read ⟨true, [catalogOption, compactOption, emitOption]⟩ start args
  let product := if given.values.lookup "emit" = some "dataset" then .dataset else .sql
  return .compile (← requiredFile given) (catalog given)
    (given.values.lookup "compact").isSome product

def onlyCatalog (make : Option String → Command) (args : List String) :
    Except Refusal Command := do
  return make (catalog (← read ⟨false, [catalogOption]⟩ start args))

def subcommandNames : List String := ["check", "compile", "events", "lsp", "help"]

/-- Help about a subcommand, or about the whole program. -/
def helpRefusal : List String → Refusal
  | [] => .help
  | [name] => if name ∈ subcommandNames then .help else .usage
  | _ => .usage

end Arguments

/-- The command that arguments ask for. -/
def Command.ofArguments : List String → Except Refusal Command
  | "check" :: args => Arguments.check args
  | "compile" :: args => Arguments.compile args
  | "events" :: args => Arguments.onlyCatalog .events args
  | "lsp" :: args => Arguments.onlyCatalog .serve args
  | "help" :: args => .error (Arguments.helpRefusal args)
  | arg :: _ =>
    match Arguments.kind arg with
    | .long "help" none => .error .help
    | .short 'h' _ => .error .help
    | .long "version" none => .error .version
    | .short 'V' _ => .error .version
    | _ => .error .usage
  | [] => .error .usage

end EventQuery
