import EventQuery.Editor.Protocol
import EventQuery.Number.Reading
import EventQuery.Url.Parser

/-! The calls that an editor makes, as documents, and the documents that answer them. -/

namespace EventQuery.Editor

/-- A call of an editor; a request has an id and wants an answer. -/
structure Call where
  id : Option Value
  method : String
  params : Value

/-- The value at the end of a path of field names. -/
def field? : List String → Value → Option Value
  | [], v => some v
  | name :: path, .record fields => (fields.lookup name).bind (field? path)
  | _ :: _, _ => none

def textAt? (path : List String) (v : Value) : Option String := (field? path v).bind Value.asText?

/-- An integer from `low` to `high`. -/
def intAt? (low high : Int) (path : List String) (v : Value) : Option Int :=
  match field? path v with
  | some (.number numeral) =>
    (Numeral.int64? numeral).filter fun n => decide (low ≤ n) && decide (n ≤ high)
  | _ => none

/-- Versions have 32 bits with a sign. -/
def versionAt? : List String → Value → Option Int := intAt? (-2147483648) 2147483647

/-- Lines and characters have 32 bits without a sign. -/
def natAt? (path : List String) (v : Value) : Option Nat :=
  (intAt? 0 4294967295 path v).map Int.toNat

def positionAt? (path : List String) (v : Value) : Option Position := do
  return ⟨← natAt? (path ++ ["line"]) v, ← natAt? (path ++ ["character"]) v⟩

namespace Call

def ofValue? (v : Value) : Option Call := do
  return ⟨field? ["id"] v, ← textAt? ["method"] v, (field? ["params"] v).getD .null⟩

def document? (c : Call) : Option Url := (textAt? ["textDocument", "uri"] c.params).bind Url.parse?

def version? (c : Call) : Option Int := versionAt? ["textDocument", "version"] c.params

def position? (c : Call) : Option Position := positionAt? ["position"] c.params

/-- The whole texts of a list of changes. -/
def texts? (c : Call) : Option (List String) := do
  let .list changes ← field? ["contentChanges"] c.params | none
  changes.mapM (textAt? ["text"])

/-- How the message of a method is read from its parameters, if the method is known. -/
def reader? (c : Call) : Option (Option Message) :=
  match c.method with
  | "initialize" => some (some .connect)
  | "initialized" => some (some .connected)
  | "shutdown" => some (some .shutdown)
  | "textDocument/didOpen" => some do
    return .opened (← c.document?) (← c.version?) (← textAt? ["textDocument", "text"] c.params)
  | "textDocument/didChange" => some do
    return .changed (← c.document?) (← c.version?) (← c.texts?)
  | "textDocument/didClose" => some do return .closed (← c.document?)
  | "textDocument/completion" => some do return .completion (← c.document?) (← c.position?)
  | "textDocument/hover" => some do return .hover (← c.document?) (← c.position?)
  | _ => none

/-- The message that a call carries. -/
def message (c : Call) : Except RequestFault Message :=
  match c.reader? with
  | none => .error .unknownMethod
  | some none => .error .badParameters
  | some (some m) => .ok m

end Call

/-- A call without a message changes nothing, and is refused if it is a request. -/
def Session.receive (catalog : Catalog) (s : Session) (c : Call) : Reaction :=
  match c.message with
  | .ok m => s.step catalog m
  | .error fault => ⟨s, [], c.id.map fun _ => .refused fault⟩

/-- What is sent and replied to each of a list of calls. -/
def Session.serve (catalog : Catalog) : Session → List Call → List (List Notice × Option Reply)
  | _, [] => []
  | s, c :: cs =>
    let r := s.receive catalog c
    (r.notices, r.reply) :: serve catalog r.session cs

def envelope (fields : List (String × Value)) : Value :=
  .record (("jsonrpc", .text "2.0") :: fields)

def Notice.toValue (n : Notice) : Value :=
  envelope [("method", .text n.method), ("params", n.params)]

def RequestFault.toValue : RequestFault → Value
  | .afterShutdown => .record [("code", .number "-32600"), ("message", .text "Invalid request")]
  | .unknownMethod => .record [("code", .number "-32601"), ("message", .text "Method not found")]
  | .badParameters => .record [("code", .number "-32602"), ("message", .text "Invalid params")]

def Reply.answer (id : Value) : Reply → Value
  | .refused fault => envelope [("id", id), ("error", fault.toValue)]
  | r => envelope [("id", id), ("result", r.toValue)]

/-- The documents to send after a call. -/
def Reaction.toValues (r : Reaction) (c : Call) : List Value :=
  let answer := do return Reply.answer (← c.id) (← r.reply)
  r.notices.map (·.toValue) ++ answer.toList

end EventQuery.Editor
