import EventQuery.Host.Basic
import EventQuery.Host.Environment
import EventQuery.Host.Path

/-! A host held in memory: the files of one directory, named by their paths in it, on a machine
that has little else, and its variables. -/

namespace EventQuery.Host

structure Memory where
  /-- The parts of the path of the directory in which the program runs. -/
  home : List String
  files : List (String × String)
  environment : Environment

namespace Memory

/-- The directories at the top of every machine. -/
def topDirectories : List String :=
  ["bin", "dev", "etc", "home", "lib", "media", "mnt", "opt", "proc", "root", "run", "sbin", "srv",
    "sys", "tmp", "usr", "var"]

/-- The device that is always empty. -/
def emptyDevice : List String := ["dev", "null"]

/-- A name is at most this many bytes long. -/
def nameLimit : Nat := 255

/-- A path is shorter than this many bytes. -/
def pathLimit : Nat := 4096

/-- The files with the parts of their paths from the top. -/
def located (h : Memory) : List (List String × String) :=
  h.files.map fun f => (h.home ++ Path.parts f.1, f.2)

def file? (h : Memory) (path : List String) : Option String :=
  if path = emptyDevice then some "" else h.located.lookup path

/-- A directory is there if the program's own one or a file lies in it. -/
def isDirectory (h : Memory) (path : List String) : Bool :=
  path.isPrefixOf h.home || topDirectories.any ([·] == path) ||
    h.located.any fun f => path.isPrefixOf f.1 && path != f.1

/-- The path reached from a directory by a list of parts. Above the top there is the top. -/
def walk (h : Memory) : List String → List String → Except ReadFault (List String)
  | here, [] => .ok here
  | here, part :: rest =>
    if (h.file? here).isSome then .error .notDirectory
    else if part = "" || part = "." then walk h here rest
    else if part = ".." then walk h here.dropLast rest
    else if nameLimit < part.utf8ByteSize then .error .nameTooLong
    else
      let next := here ++ [part]
      if (h.file? next).isSome || h.isDirectory next then walk h next rest else .error .missing

def read (h : Memory) (path : String) : Except ReadFault String :=
  if path = "" then .error .missing
  else if path.toList.contains (Char.ofNat 0) then .error .badName
  else if pathLimit ≤ path.utf8ByteSize then .error .nameTooLong
  else do
    let start := if Path.isAbsolute path then [] else h.home
    match h.file? (← h.walk start (Text.split '/' path)) with
    | some text => .ok text
    | none => .error .isDirectory

def host (h : Memory) : Host Id where
  read := h.read
  valueOf? := h.environment.valueOf?

end Memory

end EventQuery.Host
