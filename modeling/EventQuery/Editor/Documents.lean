import EventQuery.Digest
import EventQuery.Url.Basic
import Std.Data.TreeMap

/-! The documents that are open in an editor, by the texts of their addresses. A digest tells
whether a text has changed. -/

namespace EventQuery.Editor

structure Document where
  version : Int
  text : String
  hash : String
deriving DecidableEq

def Document.ofText (version : Int) (text : String) : Document :=
  ⟨version, text, Digest.ofText text⟩

structure Documents where
  entries : Std.TreeMap String Document

namespace Documents

def empty : Documents := ⟨∅⟩

def get? (ds : Documents) (uri : Url) : Option Document := ds.entries[uri.text]?

def text? (ds : Documents) (uri : Url) : Option String := (ds.get? uri).map (·.text)

def size (ds : Documents) : Nat := ds.entries.size

/-- The latest text of a document is new, or has another digest than the one before. -/
def differs (ds : Documents) (uri : Url) (d : Document) : Bool :=
  match ds.get? uri with
  | none => true
  | some old => old.hash != d.hash

/-- The documents with the latest text of one, and whether that changed. -/
def update (ds : Documents) (uri : Url) (version : Int) (text : String) : Bool × Documents :=
  let d := Document.ofText version text
  (ds.differs uri d, ⟨ds.entries.insert uri.text d⟩)

/-- The documents without one, and what it was. -/
def remove (ds : Documents) (uri : Url) : Option Document × Documents :=
  (ds.get? uri, ⟨ds.entries.erase uri.text⟩)

end Documents

end EventQuery.Editor
