import EventQuery.Document.Value
import EventQuery.Editor.Session

/-! Notices and replies in the form in which editors exchange them. -/

namespace EventQuery.Editor

def natValue (n : Nat) : Value := .number (toString n)

def positionValue (p : Position) : Value :=
  .record [("line", natValue p.line), ("character", natValue p.character)]

def rangeValue (s : Span) : Value :=
  .record [("start", positionValue s.start), ("end", positionValue s.stop)]

def CompletionKind.number : CompletionKind → Nat
  | .event => 7
  | .keyword => 14
  | .function => 3
  | .column => 5
  | .entity => 18

/-- A field that is left out if it has no value. -/
def optionalField (name : String) (v : Option Value) : List (String × Value) :=
  (v.map fun v => (name, v)).toList

def Diagnostic.toValue (d : Diagnostic) : Value :=
  .record [("range", rangeValue d.place), ("severity", natValue 1),
    ("code", .text d.source.text), ("source", .text "eeql"), ("message", .text d.message)]

def Completion.toValue (c : Completion) : Value :=
  .record ([("label", .text c.label), ("kind", natValue c.kind.number)] ++
    optionalField "detail" (c.detail.map .text))

def Hover.toValue (h : Hover) : Value :=
  .record [("contents", .record [("kind", .text "plaintext"), ("value", .text h.contents)]),
    ("range", rangeValue h.place)]

namespace Notice

def method : Notice → String
  | .log _ => "window/logMessage"
  | .publish _ _ _ => "textDocument/publishDiagnostics"

def params : Notice → Value
  | .log text => .record [("type", natValue 3), ("message", .text text)]
  | .publish uri diagnostics version =>
    .record ([("uri", .text uri.text), ("diagnostics", .list (diagnostics.map (·.toValue)))] ++
      optionalField "version" (version.map fun n => .number (toString n)))

end Notice

/-- Whole texts are exchanged; completions are offered after a blank and an opening bracket. -/
def capabilities : Value :=
  .record [("capabilities", .record [
      ("textDocumentSync", natValue 1),
      ("completionProvider", .record [("triggerCharacters", .list [.text " ", .text "("]),
        ("resolveProvider", .bool false)]),
      ("hoverProvider", .bool true)]),
    ("serverInfo", .record [("name", .text "eeql-lsp"), ("version", .text "0.1.0")])]

/-- The result of a request; a refused one has none. -/
def Reply.toValue : Reply → Value
  | .capabilities => Editor.capabilities
  | .completions none => .null
  | .completions (some items) => .list (items.map (·.toValue))
  | .hover none => .null
  | .hover (some h) => h.toValue
  | .done => .null
  | .refused _ => .null

end EventQuery.Editor
