import EventQuery.Command.Run
import EventQuery.Document.JsonReader
import EventQuery.Editor.Wire

/-! The program: the commands on the files and variables of the machine, and the service of an
editor on standard input and output. -/

namespace EventQuery

/-- The number of a fault of the machine, which may come with a minus sign. -/
def isCode (n code : UInt32) : Bool := code == n || code == 0 - n

def readFault : IO.Error → ReadFault
  | .noFileOrDirectory .. => .missing
  | .noSuchThing .. => .missing
  | .inappropriateType _ code _ => if isCode 20 code then .notDirectory else .isDirectory
  | .invalidArgument file code details =>
    if isCode 36 code then .nameTooLong
    else if isCode 22 code then .badName
    else .other (toString (IO.Error.invalidArgument file code details))
  | e => .other (toString e)

def machine : Host IO where
  read := fun path => do
    try
      match String.fromUTF8? (← IO.FS.readBinFile path) with
      | some text => return .ok text
      | none => return .error .notText
    catch e => return .error (readFault e)
  valueOf? := fun name => IO.getEnv name

/-- The length that the header of a message gives; none at the end of the input. -/
partial def readHeader (input : IO.FS.Stream) (length : Nat) : IO (Option Nat) := do
  let line ← input.getLine
  if line.isEmpty then return none
  let line := Text.trim line
  if line.isEmpty then return some length
  let length :=
    match Text.split ':' line with
    | [name, value] =>
      if Text.lower name = "content-length" then (Text.trim value).toNat?.getD length else length
    | _ => length
  readHeader input length

partial def readBytes (input : IO.FS.Stream) (length : Nat) (done : ByteArray) : IO ByteArray := do
  if length ≤ done.size then return done
  let more ← input.read (length - done.size).toUSize
  if more.isEmpty then return done
  readBytes input length (done ++ more)

def send (output : IO.FS.Stream) (v : Value) : IO Unit := do
  let body := Json.pretty v
  output.putStr ("Content-Length: " ++ toString body.utf8ByteSize ++ "\r\n\r\n" ++ body)
  output.flush

partial def serve (catalog : Catalog) (input output : IO.FS.Stream) (s : Editor.Session) :
    IO Unit := do
  let some length ← readHeader input 0 | return
  let body ← readBytes input length .empty
  match ((String.fromUTF8? body).bind Json.parse).bind Editor.Call.ofValue? with
  | none => serve catalog input output s
  | some call =>
    if call.method = "exit" then return
    let reaction := s.receive catalog call
    (reaction.toValues call).forM (send output)
    serve catalog input output reaction.session

def runCommand (args : List String) : IO Outcome := do
  match Command.ofArguments args with
  | .ok (.serve given) =>
    match ← Command.prepare machine (.serve given) with
    | .ok (_, catalog) =>
      serve catalog (← IO.getStdin) (← IO.getStdout) .start
      return .success ""
    | .error e => return .failure e
  | _ => Command.run machine args

end EventQuery

def main (args : List String) : IO UInt32 := do
  let outcome ← EventQuery.runCommand args
  (← IO.getStdout).putStr outcome.output
  (← IO.getStderr).putStr outcome.errors
  return outcome.exitCode.toUInt32
