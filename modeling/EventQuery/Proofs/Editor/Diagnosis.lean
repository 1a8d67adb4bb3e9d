import EventQuery.Catalog.Demo
import EventQuery.Editor.Diagnostic
import EventQuery.Proofs.Query.Reported
import EventQuery.Proofs.Query.Spans
import EventQuery.Proofs.Query.Stuck

/-! The places of diagnostics. A complaint about a character, about a token or about a part of a
query goes forward from its start to its end. The complaint that a text ends too early starts at the
end of the text and stops at the end of its last token, so it runs backward when blanks or a comment
trail that token. -/

namespace EventQuery

open Grammar Source EventQuery.Parser Text

variable {text : String}

/-! ## Complaints about a text -/

theorem Source.complaintAt_forward (offset : Nat) (cs : List Char) :
    (complaintAt offset cs).place.start ≤ (complaintAt offset cs).place.stop := by
  cases cs with
  | nil => exact Nat.le_refl _
  | cons c cs => exact Nat.le_add_right _ _

theorem Source.lexFrom_error_forward {offset : Nat} {cs : List Char} {e : SyntaxError ByteRange}
    (h : lexFrom offset cs = .error e) : e.place.start ≤ e.place.stop := by
  fun_induction lexFrom offset cs generalizing e with
  | case1 => cases h
  | case2 offset c cs more hfront ih => exact ih h
  | case3 => cases h
  | case4 offset c cs t more hfront stop e' he =>
    rename_i ih
    cases h
    exact ih he
  | case5 offset c cs skip hfront =>
    cases h
    exact complaintAt_forward _ _

theorem Query.parse_eq_error_iff {e : SyntaxError Span} :
    Query.parse text = .error e ↔
      ∃ e', parseBytes text.toList = .error e' ∧ e'.map (span text.toList) = e := by
  rw [Query.parse]
  cases parseBytes text.toList with
  | ok q =>
    constructor
    · intro h
      cases h
    · rintro ⟨_, h, -⟩
      cases h
  | error e' =>
    constructor
    · intro h
      exact ⟨e', rfl, Except.error.inj h⟩
    · rintro ⟨_, h, rfl⟩
      cases h
      rfl

/-- Past the end of the tokens the complaint goes from the end of the text to that of the tokens. -/
theorem Query.parse_error_at_end {lexemes : List Lexeme} {last : Lexeme}
    (hlex : lex text.toList = .ok lexemes) (hlast : lexemes.getLast? = some last) {place : Span}
    (h : Query.parse text = .error ⟨.unexpected .endOfInput, place⟩) :
    place = span text.toList ⟨byteSize text.toList, last.place.stop⟩ := by
  obtain ⟨e, he, hmap⟩ := parse_eq_error_iff.mp h
  rw [parseBytes, hlex] at he
  rcases parseLexemes_error_cases he with ⟨l, -, -, hvalue⟩ | rfl
  · exact absurd (congrArg Located.value hmap) hvalue
  · rw [complaint, hlast] at hmap
    exact (congrArg Located.place hmap).symm

/-- The text needs more tokens, and something else stands behind its last one. -/
def TrailsOff (text : String) : Prop :=
  ∃ lexemes last place, lex text.toList = .ok lexemes ∧ lexemes.getLast? = some last ∧
    last.place.stop < byteSize text.toList ∧
    Query.parse text = .error ⟨.unexpected .endOfInput, place⟩

theorem Query.parse_error_forward (htrails : ¬TrailsOff text) {e : SyntaxError Span}
    (h : Query.parse text = .error e) : e.place.start ≤ e.place.stop := by
  obtain ⟨e', he, rfl⟩ := parse_eq_error_iff.mp h
  suffices hforward : e'.place.start ≤ e'.place.stop from position_mono text.toList hforward
  cases hlex : lex text.toList with
  | error e'' =>
    rw [parseBytes, hlex] at he
    cases he
    exact lexFrom_error_forward hlex
  | ok lexemes =>
    rw [parseBytes, hlex] at he
    rcases parseLexemes_error_cases he with ⟨l, hl, hplace, -⟩ | rfl
    · rw [hplace]
      exact (lex_ordered hlex).forward l hl
    · cases hlast : lexemes.getLast? with
      | none =>
        rw [complaint, hlast]
        exact Nat.le_refl _
      | some last =>
        rw [complaint, hlast]
        -- The complaint starts at the end of the text, whatever stands behind the last token.
        refine Nat.le_of_not_lt fun hlt => htrails ?_
        exact ⟨lexemes, last, _, hlex, hlast, hlt, h⟩

/-- What trails the last token makes the end of the text a later position. -/
theorem Source.position_end_lt {lexemes : List Lexeme} (hlex : lex text.toList = .ok lexemes)
    {l : Lexeme} (hl : l ∈ lexemes) (hlt : l.place.stop < byteSize text.toList) :
    position text.toList l.place.stop < position text.toList (byteSize text.toList) := by
  obtain ⟨word, -, before, after, htext, -, hstop⟩ := lex_spelled hlex l hl
  rw [htext] at hlt ⊢
  cases after with
  | nil =>
    rw [List.append_nil, hstop] at hlt
    exact absurd hlt (Nat.lt_irrefl _)
  | cons c after =>
    rw [← hstop]
    refine position_lt ?_
    rw [byteSize_append (before ++ word), byteSize]
    omega

/-! ## Complaints about a query -/

theorem Query.forward_of_parse {q : Query Span} (h : Query.parse text = .ok q) :
    ∀ n ∈ q.nodes, n.place.start ≤ n.place.stop := by
  obtain ⟨lexemes, hlex⟩ := exists_lexemes_of_parse h
  obtain ⟨t, ht, hknown⟩ := exists_tree_of_parse hlex h
  rw [parse_eq_ok hlex ht hknown] at h
  cases h
  have hordered : Ordered t.lexemes := ht ▸ lex_ordered hlex
  rw [nodes_map]
  exact List.forall_mem_map.mpr fun n hn => position_mono text.toList (t.forward hordered n hn)

open Editor in
/-- **Diagnostics go forward unless the text trails off.** In a text that needs more tokens and goes
on behind its last one, the only diagnostic starts at the end of the text and stops at the end of
that token, which comes before. Otherwise each diagnostic starts no later than it stops. -/
theorem diagnostics_forward_iff {catalog : Catalog} :
    ((∀ d ∈ diagnostics catalog text, d.place.start ≤ d.place.stop) ↔ ¬TrailsOff text) ∧
      ∀ lexemes last place, lex text.toList = .ok lexemes → lexemes.getLast? = some last →
        Query.parse text = .error ⟨.unexpected .endOfInput, place⟩ →
        diagnostics catalog text = [⟨.syntactic, "found end of input",
          position text.toList (byteSize text.toList), position text.toList last.place.stop⟩] := by
  have hend : ∀ lexemes last place, lex text.toList = .ok lexemes → lexemes.getLast? = some last →
      Query.parse text = .error ⟨.unexpected .endOfInput, place⟩ →
      diagnostics catalog text = [⟨.syntactic, "found end of input",
        position text.toList (byteSize text.toList), position text.toList last.place.stop⟩] := by
    intro lexemes last place hlex hlast h
    rw [diagnostics, h, Query.parse_error_at_end hlex hlast h]
    rfl
  refine ⟨⟨?_, ?_⟩, hend⟩
  · rintro hforward ⟨lexemes, last, place, hlex, hlast, hlt, h⟩
    rw [hend lexemes last place hlex hlast h] at hforward
    have hbackward := position_end_lt hlex (List.mem_of_getLast? hlast) hlt
    exact Position.not_le.mpr hbackward (hforward _ List.mem_cons_self)
  · intro htrails d hd
    unfold diagnostics at hd
    split at hd
    · next e he =>
      rw [List.mem_singleton.mp hd]
      exact Query.parse_error_forward htrails he
    · next q hq =>
      split at hd
      · next e he =>
        rw [List.mem_singleton.mp hd]
        obtain ⟨n, hn, hplace⟩ := Query.validate_error he
        rw [← hplace]
        exact Query.forward_of_parse hq n hn
      · cases hd

/-- A blank stands behind the last token, where a parenthesis is missing. -/
def openSelectText : String := "select first user_signed_up (plan as plan "

open Editor in
theorem diagnostic_of_openSelect_runs_backward :
    diagnostics .demo openSelectText =
        [⟨.syntactic, "found end of input", ⟨⟨0, 42⟩, ⟨0, 41⟩⟩⟩] ∧
      ¬∀ d ∈ diagnostics .demo openSelectText, d.place.start ≤ d.place.stop := by
  decide +kernel

end EventQuery
