import EventQuery.Proofs.Query.Lookahead
import Mathlib.Order.Bounds.Defs

/-! The first offending token. Where the reading of a query without entities is stuck, the tokens
in front of that place are the start of a query, and with the token at that place they are not. So
a syntax error points at the first token that no query can have there, or at the end of a text that
some query goes on from. -/

namespace EventQuery

open Grammar Outcome EventQuery.Parser

/-- The tokens are the start of a derivation, with any name for a function. -/
def Viable (tokens : List Token) : Prop :=
  ∃ (t : QueryTree) (lexemes : List Lexeme), t.Derives lexemes ∧ tokens <+: lexemes.map (·.value)

namespace Parser

/-- Tokens that differ from a derivation only in places are read. -/
theorem exists_query_eq_ok {t : QueryTree} {lexemes : Rest}
    (h : lexemes.map (·.value) = t.lexemes.map (·.value)) : ∃ x, query lexemes = .ok x := by
  have hquery := query_forget lexemes
  rw [forget_eq_of_values h, query_forget, query_complete] at hquery
  cases hread : query lexemes with
  | ok x => exact ⟨x, rfl⟩
  | error p =>
    rw [hread] at hquery
    cases hquery

theorem isGreatest_of_stuck {lexemes : Rest} (h : NoEntities lexemes) {p : Progress}
    (hp : query lexemes = .error p) :
    ∃ c, lexemes = c ++ p.rest ∧
      IsGreatest {n | n ≤ lexemes.length ∧ Viable ((lexemes.take n).map (·.value))} c.length := by
  obtain ⟨c, hc, hread, hdecided⟩ := reads_query h
  rw [hp] at hc hread hdecided
  obtain ⟨_, ⟨t, rfl⟩, hprefix⟩ := hread
  change lexemes = c ++ p.rest at hc
  refine ⟨c, hc, ⟨?_, ?_⟩, ?_⟩
  · rw [hc, List.length_append]
    omega
  · refine ⟨t, t.lexemes, QueryTree.derives_iff.mpr rfl, ?_⟩
    rw [hc, List.take_left]
    exact hprefix.map _
  · rintro n ⟨hn, s, _, ⟨rfl, -⟩, hviable⟩
    by_contra hlt
    -- The tokens up to the offending one would start a derivation, so they would be read with what
    -- follows in it.
    obtain ⟨l, tail, hrest⟩ : ∃ l tail, p.rest = l :: tail := by
      refine List.exists_cons_of_ne_nil fun hnil => ?_
      rw [hc, hnil, List.append_nil] at hn
      exact hlt hn
    have hfirst : c ++ [l] <+: lexemes.take n := by
      rw [List.prefix_take_iff, hc, hrest, List.length_append, List.length_singleton]
      exact ⟨⟨tail, by simp⟩, by omega⟩
    obtain ⟨more, hmore⟩ := (hfirst.map (·.value)).trans hviable
    have hvalues : (c ++ l :: more.map (⟨·, ⟨0, 0⟩⟩)).map (·.value) = s.lexemes.map (·.value) := by
      rw [← hmore]
      simp [Function.comp_def]
    obtain ⟨x, hx⟩ := exists_query_eq_ok hvalues
    cases hx.symm.trans (hdecided l tail _ hrest)

end Parser

variable {text : String} {lexemes : List Lexeme}

/-- **A syntax error points at the first offending token.** In a text without entities, the tokens
in front of it start a derivation, and together with it they do not. -/
theorem parse_error_at_first_offending (hlex : Source.lex text.toList = .ok lexemes)
    (husing : ∀ l ∈ lexemes, l.value ≠ .keyword .usingList) {e : SyntaxError Span} {found : Found}
    (h : Query.parse text = .error e) (hfound : e.value = .unexpected found) :
    ∃ k, IsGreatest {n | n ≤ lexemes.length ∧ Viable ((lexemes.take n).map (·.value))} k ∧
      ((∃ l, lexemes[k]? = some l ∧ found = .token l.value ∧
          e.place.start = Source.position text.toList l.place.start) ∨
        k = lexemes.length ∧ found = .endOfInput ∧
          e.place.start = Source.position text.toList (Text.byteSize text.toList)) := by
  rw [Query.parse, parseBytes, hlex] at h
  simp only [parseLexemes] at h
  cases hquery : query lexemes with
  | ok x =>
    obtain ⟨q, _ | ⟨f, fs⟩⟩ := x
    · rw [hquery] at h
      cases h
    · rw [hquery] at h
      cases h
      cases hfound
  | error p =>
    -- An unknown function in front would be reported in its place, which is another error.
    obtain ⟨c, hc, hgreatest⟩ := isGreatest_of_stuck husing hquery
    obtain ⟨stuck, _ | ⟨f, fs⟩⟩ := p
    · rw [hquery] at h
      cases h
      refine ⟨c.length, hgreatest, ?_⟩
      cases stuck with
      | nil =>
        cases hfound
        exact .inr ⟨by rw [hc, List.append_nil], rfl, rfl⟩
      | cons l tail =>
        cases hfound
        refine .inl ⟨l, ?_, rfl, rfl⟩
        rw [hc, List.getElem?_append_right (Nat.le_refl _), Nat.sub_self]
        rfl
    · rw [hquery] at h
      cases h
      cases hfound

/-- The filter lacks its parenthesis. -/
def bareFilterText : String := "select last pay (id as i,)\njoin after buy (id as j filter x = 1)"

def bareFilterLexemes : List Lexeme :=
  (Source.lex bareFilterText.toList).toOption.get (by decide +kernel)

theorem bareFilter_points_at_name :
    Source.lex bareFilterText.toList = .ok bareFilterLexemes ∧
      Query.parse bareFilterText = .error ⟨.unexpected (.token (.ident "x")), ⟨1, 31⟩, ⟨1, 32⟩⟩ ∧
      ∃ k, IsGreatest {n | n ≤ bareFilterLexemes.length ∧
          Viable ((bareFilterLexemes.take n).map (·.value))} k ∧
        ∃ l, bareFilterLexemes[k]? = some l ∧ l.value = .ident "x" := by
  have hlex : Source.lex bareFilterText.toList = .ok bareFilterLexemes := by decide +kernel
  have hparse : Query.parse bareFilterText =
      .error ⟨.unexpected (.token (.ident "x")), ⟨1, 31⟩, ⟨1, 32⟩⟩ := by decide +kernel
  obtain ⟨k, hk, ⟨l, hl, hfound, -⟩ | ⟨-, hfound, -⟩⟩ :=
    parse_error_at_first_offending hlex (by decide +kernel) hparse rfl
  · exact ⟨hlex, hparse, k, hk, l, hl, (Found.token.inj hfound).symm⟩
  · cases hfound

end EventQuery
