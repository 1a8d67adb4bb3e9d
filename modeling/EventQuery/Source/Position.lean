/-! Places in a text: positions by line and column, in the lexicographic order, half-open spans of
them, and half-open ranges of byte offsets. -/

namespace EventQuery

/-- A line and a column in it, both counted from zero; columns are counted in 16-bit units. Both are
to stay below `2 ^ 32`, as they do in every text of fewer bytes
(`Source.position_lt_of_byteSize_lt`). -/
structure Position where
  line : Nat
  character : Nat
deriving DecidableEq

namespace Position

instance : LE Position where
  le a b := a.line < b.line ∨ a.line = b.line ∧ a.character ≤ b.character

instance : LT Position where
  lt a b := a.line < b.line ∨ a.line = b.line ∧ a.character < b.character

instance (a b : Position) : Decidable (a ≤ b) := inferInstanceAs (Decidable (_ ∨ _))

instance (a b : Position) : Decidable (a < b) := inferInstanceAs (Decidable (_ ∨ _))

end Position

/-- The positions from `start` up to, not including, `stop`. -/
structure Span where
  start : Position
  stop : Position
deriving DecidableEq

namespace Span

def isEmpty (s : Span) : Bool := s.start == s.stop

def contains (s : Span) (p : Position) : Bool := s.start ≤ p && p < s.stop

def encloses (s t : Span) : Bool := s.start ≤ t.start && t.stop ≤ s.stop

/-- Lines and columns counted from one, as people read them. -/
def text (s : Span) : String :=
  let place (p : Position) := toString (p.line + 1) ++ ":" ++ toString (p.character + 1)
  place s.start ++ "-" ++ place s.stop

end Span

/-- The bytes of a text from offset `start` up to, not including, `stop`. -/
structure ByteRange where
  start : Nat
  stop : Nat
deriving DecidableEq

namespace ByteRange

/-- The empty range where `r` starts. -/
def atStart (r : ByteRange) : ByteRange := ⟨r.start, r.start⟩

/-- From the start of `r` to the end of `s`. -/
def through (r s : ByteRange) : ByteRange := ⟨r.start, s.stop⟩

end ByteRange

/-- A value with the place it was read from. -/
structure Located (ρ : Type) (α : Type) where
  value : α
  place : ρ
deriving DecidableEq

namespace Located

def map {ρ σ α : Type} (f : ρ → σ) (x : Located ρ α) : Located σ α := ⟨x.value, f x.place⟩

end Located

end EventQuery
