import EventQuery.Editor.Completion
import EventQuery.Editor.Diagnostic
import EventQuery.Editor.Documents
import EventQuery.Editor.Hover

/-! A session with an editor: each message of the editor is one step, which may send notices and
give a reply. Diagnostics are published whenever a text changes, and cleared when it is closed. -/

namespace EventQuery.Editor

inductive Message where
  | connect
  | connected
  | opened (uri : Url) (version : Int) (text : String)
  /-- Each change holds the whole text. -/
  | changed (uri : Url) (version : Int) (texts : List String)
  | closed (uri : Url)
  | completion (uri : Url) (p : Position)
  | hover (uri : Url) (p : Position)
  | shutdown
deriving DecidableEq

inductive Notice where
  | log (text : String)
  | publish (uri : Url) (diagnostics : List Diagnostic) (version : Option Int)
deriving DecidableEq

/-- Why a request has no answer. -/
inductive RequestFault where
  | afterShutdown
  | unknownMethod
  | badParameters
deriving DecidableEq

inductive Reply where
  | capabilities
  | completions (items : Option (List Completion))
  | hover (h : Option Hover)
  | done
  | refused (fault : RequestFault)
deriving DecidableEq

structure Session where
  documents : Documents
  /-- After a shutdown nothing happens any more, and requests are refused. -/
  isShutDown : Bool

structure Reaction where
  session : Session
  notices : List Notice
  reply : Option Reply

namespace Session

def start : Session := ⟨.empty, false⟩

/-- The text is stored, and its diagnostics are published if it changed. -/
def refresh (catalog : Catalog) (s : Session) (uri : Url) (version : Int) (text : String) :
    Session × List Notice :=
  let (changed, documents) := s.documents.update uri version text
  ({ s with documents },
    if changed then [.publish uri (diagnostics catalog text) (some version)] else [])

/-- The effect of a notification: the session after it and what is sent. -/
def notify (catalog : Catalog) (s : Session) : Message → Session × List Notice
  | .connected => (s, [.log "EEQL language server initialized"])
  | .opened uri version text => s.refresh catalog uri version text
  | .changed uri version texts =>
    match texts.getLast? with
    | none => (s, [])
    | some text => s.refresh catalog uri version text
  | .closed uri => ({ s with documents := (s.documents.remove uri).2 }, [.publish uri [] none])
  | .shutdown => ({ s with isShutDown := true }, [])
  | _ => (s, [])

/-- The reply to a request. An empty list of completions is no list. -/
def answer? (catalog : Catalog) (s : Session) : Message → Option Reply
  | .connect => some .capabilities
  | .completion uri p =>
    let items := ((s.documents.text? uri).map fun text => completions catalog text p).getD []
    some (.completions (if items.isEmpty then none else some items))
  | .hover uri p => some (.hover ((s.documents.text? uri).bind fun text => hover? catalog text p))
  | .shutdown => some .done
  | _ => none

def step (catalog : Catalog) (s : Session) (m : Message) : Reaction :=
  if s.isShutDown then ⟨s, [], (s.answer? catalog m).map fun _ => .refused .afterShutdown⟩
  else
    let (next, notices) := s.notify catalog m
    ⟨next, notices, s.answer? catalog m⟩

/-- What is sent and replied to each of a list of messages. -/
def run (catalog : Catalog) : Session → List Message → List (List Notice × Option Reply)
  | _, [] => []
  | s, m :: ms =>
    let r := s.step catalog m
    (r.notices, r.reply) :: run catalog r.session ms

end Session

end EventQuery.Editor
