import EventQuery.Proofs.Source.Offsets
import EventQuery.Proofs.Source.Spelling

/-! The tokens of a text. They stand in the order of the text without overlap, each where it is
spelled, and no token starts with a line feed or ends with a carriage return, so that the positions
of its two ends give back its offsets. -/

namespace EventQuery

open Text

/-- The characters spell the token: a name is itself, and a keyword is in any case. -/
structure Token.IsSpelled (t : Token) (word : List Char) : Prop where
  first : ∃ c rest, word = c :: rest ∧ c ≠ '\n'
  last : word.getLast? ≠ some '\r'
  ident : ∀ name, t = .ident name → word = name.toList
  keyword : ∀ k, t = .keyword k → word.map Char.toLower = k.text.toList

namespace Source

/-! ## One token -/

theorem isSpelled_of_hasSpelling {t : Token} {word : List Char} (h : t.HasSpelling word) :
    t.IsSpelled word := by
  obtain ⟨c, run, hword, hfirst, hlast⟩ := ends_of_hasSpelling h
  refine ⟨⟨c, run, hword, ?_⟩, fun he => ?_, ?_, ?_⟩
  · rintro rfl
    exact absurd hfirst (by decide)
  · exact absurd (hlast _ he) (by decide)
  · rintro name rfl
    cases h with
    | ident => exact (String.toList_ofList).symm
  · rintro k rfl
    cases h with
    | keyword h => exact h

/-! ## All tokens -/

/-- Tokens in the order of the text, without overlap. -/
structure Ordered (lexemes : List Lexeme) : Prop where
  forward : ∀ l ∈ lexemes, l.place.start ≤ l.place.stop
  apart : lexemes.Pairwise fun l m => l.place.stop ≤ m.place.start

theorem lexFrom_ordered {offset : Nat} {cs : List Char} {lexemes : List Lexeme}
    (h : lexFrom offset cs = .ok lexemes) :
    (∀ l ∈ lexemes, offset ≤ l.place.start) ∧ Ordered lexemes := by
  fun_induction lexFrom offset cs generalizing lexemes with
  | case1 =>
    cases h
    exact ⟨nofun, nofun, .nil⟩
  | case2 offset c cs more hfront ih =>
    obtain ⟨hstart, hordered⟩ := ih h
    exact ⟨fun l hl => Nat.le_trans (Nat.le_add_right _ _) (hstart l hl), hordered⟩
  | case3 offset c cs t more hfront stop rest hrest =>
    rename_i ih
    cases h
    obtain ⟨hstart, hordered⟩ := ih hrest
    have hstop : offset ≤ stop := Nat.le_add_right _ _
    refine ⟨?_, ?_, List.pairwise_cons.mpr ⟨hstart, hordered.apart⟩⟩
    · exact List.forall_mem_cons.mpr ⟨Nat.le_refl _, fun l hl => Nat.le_trans hstop (hstart l hl)⟩
    · exact List.forall_mem_cons.mpr ⟨hstop, hordered.forward⟩
  | case4 => cases h
  | case5 => cases h

theorem lex_ordered {text : List Char} {lexemes : List Lexeme} (h : lex text = .ok lexemes) :
    Ordered lexemes := (lexFrom_ordered h).2

/-- The text has these characters at these bytes. -/
def HasText (text : List Char) (r : ByteRange) (word : List Char) : Prop :=
  ∃ before after, text = before ++ word ++ after ∧
    byteSize before = r.start ∧ byteSize (before ++ word) = r.stop

theorem lexFrom_spelled (before : List Char) {cs : List Char} {lexemes : List Lexeme}
    (h : lexFrom (byteSize before) cs = .ok lexemes) : ∀ l ∈ lexemes,
      ∃ word, l.value.IsSpelled word ∧ HasText (before ++ cs) l.place word := by
  -- The text that is already read grows by the gap or the token in front of the rest.
  generalize ho : byteSize before = offset at h
  fun_induction lexFrom offset cs generalizing lexemes before with
  | case1 =>
    cases h
    nofun
  | case2 offset c cs more hfront ih =>
    have hstop :
        byteSize (before ++ c :: cs.take more) = offset + byteSize (c :: cs.take more) := by
      rw [byteSize_append, ho]
    simpa using ih _ hstop h
  | case3 offset c cs t more hfront stop rest hrest =>
    rename_i ih
    cases h
    have hstop : byteSize (before ++ c :: cs.take more) = stop := by rw [byteSize_append, ho]
    have hspelled := ih _ hstop hrest
    refine List.forall_mem_cons.mpr ⟨?_, by simpa using hspelled⟩
    refine ⟨_, isSpelled_of_hasSpelling (hasSpelling_of_front hfront), before, cs.drop more, ?_, ho,
      hstop⟩
    rw [List.append_assoc, List.cons_append, List.take_append_drop]
  | case4 => cases h
  | case5 => cases h

/-- Each token stands where it is spelled. -/
theorem lex_spelled {text : List Char} {lexemes : List Lexeme} (h : lex text = .ok lexemes) :
    ∀ l ∈ lexemes, ∃ word, l.value.IsSpelled word ∧ HasText text l.place word :=
  lexFrom_spelled [] h

/-! ## The positions of a token -/

theorem offset_position_ends {text word : List Char} {r : ByteRange} (h : HasText text r word)
    (hfirst : ∃ c rest, word = c :: rest ∧ c ≠ '\n') (hlast : word.getLast? ≠ some '\r') :
    offset text (position text r.start) = r.start ∧
      offset text (position text r.stop) = r.stop := by
  obtain ⟨before, after, rfl, hstart, hstop⟩ := h
  obtain ⟨c, rest, rfl, hc⟩ := hfirst
  rw [← hstart, ← hstop]
  constructor
  · rw [List.append_assoc]
    exact offset_position (.inr ⟨c, rest ++ after, rfl, hc⟩)
  · refine offset_position (.inl ?_)
    rw [List.getLast?_append, List.getLast?_cons]
    rwa [List.getLast?_cons] at hlast

/-- The text between the offsets of the two ends of a span. -/
def SpanText (text : List Char) (s : Span) (word : List Char) : Prop :=
  HasText text ⟨offset text s.start, offset text s.stop⟩ word

/-- The span of a token has the text that spells it. -/
theorem exists_spanText {text : List Char} {lexemes : List Lexeme} (h : lex text = .ok lexemes)
    {l : Lexeme} (hl : l ∈ lexemes) :
    ∃ word, l.value.IsSpelled word ∧ SpanText text (span text l.place) word := by
  obtain ⟨word, hspelled, htext⟩ := lex_spelled h l hl
  obtain ⟨hstart, hstop⟩ := offset_position_ends htext hspelled.first hspelled.last
  refine ⟨word, hspelled, ?_⟩
  unfold SpanText span
  rwa [hstart, hstop]

end Source

end EventQuery
