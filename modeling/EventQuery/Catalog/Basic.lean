import EventQuery.Catalog.Event
import Std.Data.TreeMap

/-! Catalogs: events in the order of their declaration, with an index from names to places in that
order. -/

namespace EventQuery

structure Catalog where
  events : List Event
  index : Std.TreeMap String Nat

namespace Catalog

/-- The index of further events, the first of which is the one at `place`. -/
def extendIndex (index : Std.TreeMap String Nat) (place : Nat) :
    List Event → Except CatalogError (Std.TreeMap String Nat)
  | [] => .ok index
  | e :: es => do
    e.check
    if index.contains e.name then .error (.duplicateEvent e.name)
    else extendIndex (index.insert e.name place) (place + 1) es

/-- The catalog of events that are each sound and have different names. -/
def ofEvents (events : List Event) : Except CatalogError Catalog := do
  let index ← extendIndex ∅ 0 events
  return ⟨events, index⟩

/-- The catalog of any events; of several with one name the first is found. -/
def unchecked (events : List Event) : Catalog where
  events := events
  index := (events.zipIdx).foldl (fun index (e, place) => index.insertIfNew e.name place) ∅

def find? (c : Catalog) (name : String) : Option Event := c.index[name]?.bind (c.events[·]?)

def eventNames (c : Catalog) : List String := c.events.map (·.name)

end Catalog

end EventQuery
