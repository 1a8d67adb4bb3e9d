import EventQuery.Proofs.Query.Nesting
import EventQuery.Proofs.Query.Parsing
import EventQuery.Query.Node

/-! The spans of a query that is read from a text: the names and words of the query stand in the
text at their spans, and every larger part runs from its first token to its last. -/

namespace EventQuery

open Grammar Source

/-! ## Names and words -/

/-- A name stands as it is, a function, a selector or a qualifier in any case of its letters. -/
def Part.Spelled (stands : List Char → Prop) : Part → Prop
  | .event name | .entity name | .source name | .label name | .filterColumn name =>
    stands name.toList
  | .function f => ∃ word, stands word ∧ word.map Char.toLower = f.text.toList
  | .qualifier q => ∃ word, stands word ∧ word.map Char.toLower = q.text.toList
  | .selector .omitted => True
  | .selector s => ∃ word, stands word ∧ word.map Char.toLower = s.text.toList
  | .query | .select | .join | .column | .filter | .comparison _ | .literal _ => True

section
variable {ρ σ : Type} (f : ρ → σ)

def Node.map (n : Node ρ) : Node σ := ⟨n.clause, n.part, f n.place⟩

theorem Column.nodes_map (clause : Clause) (c : Column ρ) :
    (c.map f).nodes clause = (c.nodes clause).map (·.map f) := by
  cases c <;> rfl

theorem Filter.nodes_map (clause : Clause) (x : Filter ρ) :
    (x.map f).nodes clause = (x.nodes clause).map (·.map f) := rfl

theorem SelectClause.nodes_map (s : SelectClause ρ) :
    (s.map f).nodes = s.nodes.map (·.map f) := by
  simp [SelectClause.nodes, SelectClause.map, Column.nodes_map, List.flatMap_map, List.map_flatMap,
    Node.map, Located.map]

theorem JoinClause.nodes_map (index : Nat) (j : JoinClause ρ) :
    (j.map f).nodes index = (j.nodes index).map (·.map f) := by
  obtain ⟨qualifier, selector, event, entities, columns, filter, place⟩ := j
  cases filter <;>
    simp [JoinClause.nodes, JoinClause.map, Column.nodes_map, Filter.nodes_map, List.flatMap_map,
      List.map_flatMap, Node.map, Located.map]

theorem joinNodes_map (index : Nat) (js : List (JoinClause ρ)) :
    joinNodes index (js.map (·.map f)) = (joinNodes index js).map (·.map f) := by
  induction js generalizing index with
  | nil => rfl
  | cons j js ih =>
    rw [List.map_cons, joinNodes, joinNodes, List.map_append, ih, JoinClause.nodes_map]

theorem Query.nodes_map (q : Query ρ) : (q.map f).nodes = q.nodes.map (·.map f) := by
  simp [Query.nodes, Query.map, SelectClause.nodes_map, joinNodes_map, Node.map]

end

namespace Grammar

section
variable {tokens : List Lexeme} (stands : ByteRange → List Char → Prop)
  (hident : ∀ n, ident n ∈ tokens → stands n.place n.value.toList)
  (hkeyword : ∀ k p, ⟨.keyword k, p⟩ ∈ tokens →
    ∃ word, stands p word ∧ word.map Char.toLower = k.text.toList)
include hident

/-- The nodes of a column are spelled by tokens of the column. Only the name of an aggregation may
differ in case, and it has to be known. -/
theorem ColumnTree.spelled {c : ColumnTree} (hc : c.lexemes ⊆ tokens)
    (hknown : ∀ f ∈ c.functions, IsKnown f.value) (clause : Clause) :
    ∀ n ∈ c.described.nodes clause, n.part.Spelled (stands n.place) := by
  cases c with
  | reference source word label =>
    simp only [described, Column.nodes, List.forall_mem_cons]
    exact ⟨trivial, hident source (hc (by simp [lexemes])),
      hident label (hc (by simp [lexemes])), List.forall_mem_nil _⟩
  | aggregation function lparen argument rparen word label =>
    simp only [described, Column.nodes, List.forall_mem_cons]
    refine ⟨trivial, ?_, hident argument (hc (by simp [lexemes])),
      hident label (hc (by simp [lexemes])), List.forall_mem_nil _⟩
    obtain ⟨f, hf⟩ := Option.isSome_iff_exists.mp
      (isSome_ofName?_iff.mpr (hknown function List.mem_cons_self))
    refine ⟨function.value.toList, hident function (hc (by simp [lexemes])), ?_⟩
    rw [hf]
    exact text_of_ofName? hf

theorem ColumnsTree.spelled {c : ColumnsTree} (hc : c.lexemes ⊆ tokens)
    (hknown : ∀ f ∈ c.functions, IsKnown f.value) (clause : Clause) :
    ∀ n ∈ c.described.flatMap (·.nodes clause), n.part.Spelled (stands n.place) := by
  induction c with
  | last column comma =>
    rw [described, List.flatMap_singleton]
    exact column.spelled stands hident (fun l hl => hc (List.mem_append_left _ hl)) hknown clause
  | more column comma rest ih =>
    obtain ⟨hcolumn, hrest⟩ := List.forall_mem_append.mp hknown
    rw [described, List.flatMap_cons, List.forall_mem_append]
    refine ⟨?_, ih (fun l hl => hc ?_) hrest⟩
    · exact column.spelled stands hident (fun l hl => hc (List.mem_append_left _ hl)) hcolumn clause
    · exact List.mem_append_right _ (List.mem_cons_of_mem _ hl)

theorem FilterTree.spelled {f : FilterTree} (hf : f.lexemes ⊆ tokens) (clause : Clause) :
    ∀ n ∈ f.described.nodes clause, n.part.Spelled (stands n.place) := by
  simp only [described, Filter.nodes, List.forall_mem_cons]
  exact ⟨trivial, hident f.column (hf (by simp [lexemes])), trivial, trivial, List.forall_mem_nil _⟩

include hkeyword

/-- A selector is spelled by its word and an event by its name; nothing stands for an omitted
selector. -/
theorem EventTree.spelled {e : EventTree} (he : e.lexemes ⊆ tokens) :
    (Part.selector e.selector.value).Spelled (stands e.selector.place) ∧
      (Part.event e.event.value).Spelled (stands e.event.place) := by
  cases e with
  | first word event =>
    exact ⟨hkeyword .first word (he (by simp [lexemes])), hident event (he (by simp [lexemes]))⟩
  | last word event =>
    exact ⟨hkeyword .last word (he (by simp [lexemes])), hident event (he (by simp [lexemes]))⟩
  | omitted event => exact ⟨trivial, hident event (he (by simp [lexemes]))⟩

theorem SelectTree.spelled {s : SelectTree} (hs : s.lexemes ⊆ tokens)
    (hknown : ∀ f ∈ s.columns.functions, IsKnown f.value) :
    ∀ n ∈ s.described.nodes, n.part.Spelled (stands n.place) := by
  obtain ⟨hselector, hevent⟩ := s.event.spelled stands hident hkeyword
    fun l hl => hs (by simp [lexemes, hl])
  simp only [described, SelectClause.nodes, List.forall_mem_append, List.forall_mem_cons]
  refine ⟨⟨trivial, hselector, hevent, List.forall_mem_nil _⟩, ?_⟩
  exact s.columns.spelled stands hident (fun l hl => hs (by simp [lexemes, hl])) hknown .base

theorem JoinTree.spelled {j : JoinTree} (hj : j.lexemes ⊆ tokens)
    (hknown : ∀ f ∈ j.columns.functions, IsKnown f.value) (index : Nat) :
    ∀ n ∈ j.described.nodes index, n.part.Spelled (stands n.place) := by
  obtain ⟨hselector, hevent⟩ := j.event.spelled stands hident hkeyword
    fun l hl => hj (by simp [lexemes, hl])
  have hqualifier : (Part.qualifier j.qualifier.value).Spelled (stands j.qualifier.place) := by
    have hmem : qualifierLexeme j.qualifier ∈ tokens := hj (by simp [lexemes])
    unfold qualifierLexeme at hmem
    split at hmem
    · next hq =>
      rw [hq]
      exact hkeyword .before _ hmem
    · next hq =>
      rw [hq]
      exact hkeyword .after _ hmem
  simp only [described, JoinClause.nodes, List.forall_mem_append, List.forall_mem_cons,
    List.forall_mem_map]
  refine ⟨⟨⟨⟨trivial, hqualifier, hselector, hevent, List.forall_mem_nil _⟩, fun e he => ?_⟩, ?_⟩,
    ?_⟩
  · have hmem := (usingNames_sublist j.entities).subset (List.mem_map_of_mem he)
    exact hident e (hj (by simp [lexemes, hmem]))
  · exact j.columns.spelled stands hident (fun l hl => hj (by simp [lexemes, hl])) hknown _
  · cases hf : j.filter with
    | none => exact List.forall_mem_nil _
    | some f =>
      refine f.spelled stands hident (fun l hl => hj ?_) _
      simp [lexemes, hf, filterLexemes, hl]

theorem joins_spelled {js : List JoinTree} (hjs : js.flatMap JoinTree.lexemes ⊆ tokens)
    (hknown : ∀ f ∈ js.flatMap (·.columns.functions), IsKnown f.value) (index : Nat) :
    ∀ n ∈ joinNodes index (js.map JoinTree.described), n.part.Spelled (stands n.place) := by
  induction js generalizing index with
  | nil => nofun
  | cons j js ih =>
    rw [List.flatMap_cons, List.forall_mem_append] at hknown
    rw [List.flatMap_cons, List.append_subset] at hjs
    rw [List.map_cons, joinNodes, List.forall_mem_append]
    exact ⟨j.spelled stands hident hkeyword hjs.1 hknown.1 index, ih hjs.2 hknown.2 (index + 1)⟩

/-- Every node is spelled by a token at its place, for any notion of standing at a place that the
tokens satisfy. -/
theorem QueryTree.spelled {q : QueryTree} (hq : q.lexemes ⊆ tokens)
    (hknown : ∀ f ∈ q.functions, IsKnown f.value) :
    ∀ n ∈ q.described.nodes, n.part.Spelled (stands n.place) := by
  rw [functions, List.forall_mem_append] at hknown
  rw [lexemes, List.append_subset] at hq
  simp only [described, Query.nodes, List.forall_mem_append, List.forall_mem_cons]
  exact ⟨⟨trivial, q.select.spelled stands hident hkeyword hq.1 hknown.1⟩,
    joins_spelled stands hident hkeyword hq.2 hknown.2 0⟩

end

end Grammar

/-! ## All spans -/

/-- An omitted selector stands empty where the name of its event starts. -/
def OmittedAtEvent (selector : Located Span Selector) (event : Located Span String) : Prop :=
  selector.value = .omitted → selector.place = ⟨event.place.start, event.place.start⟩

/-- An omitted selector has the empty span in front of its event. -/
theorem Grammar.EventTree.omittedAtEvent (e : EventTree) (text : List Char) :
    OmittedAtEvent (e.selector.map (span text)) (e.event.map (span text)) := by
  cases e with
  | first | last => nofun
  | omitted event => exact fun _ => rfl

/-- Every part of the query that is made of others runs from the start of its first token to the end
of its last. -/
structure Query.Runs (text : List Char) (t : QueryTree) (q : Query Span) : Prop where
  query : q.place = span text (extent t.lexemes)
  select : q.select.place = span text (extent t.select.lexemes)
  columns : q.select.columns.map (·.place) =
    t.select.columns.columns.map fun c => span text (extent c.lexemes)
  joins : List.Forall₂ (fun j u => j.place = span text (extent u.lexemes) ∧
    j.columns.map (·.place) = u.columns.columns.map (fun c => span text (extent c.lexemes)) ∧
    j.filter.map (·.place) = u.filter.map fun f => span text (extent f.lexemes)) q.joins t.joins

/-- Spans are converted end by end, so a part still runs from its first token to its last. -/
theorem Grammar.QueryTree.runs (t : QueryTree) (text : List Char) :
    (t.described.map (span text)).Runs text t := by
  refine ⟨rfl, rfl, ?_, ?_⟩
  · exact t.select.columns.places.trans List.map_map
  · change List.Forall₂ _ (List.map _ (List.map _ t.joins)) t.joins
    rw [List.map_map, List.forall₂_map_left_iff, List.forall₂_same]
    intro u _
    refine ⟨rfl, u.columns.places.trans List.map_map, ?_⟩
    change Option.map _ (Option.map _ (Option.map _ u.filter)) = _
    rw [Option.map_map, Option.map_map]
    rfl

/-- A text that parses has tokens. -/
theorem Query.exists_lexemes_of_parse {text : String} {q : Query Span}
    (h : Query.parse text = .ok q) : ∃ lexemes, lex text.toList = .ok lexemes := by
  cases hlex : lex text.toList with
  | error e =>
    rw [Query.parse, Parser.parseBytes, hlex] at h
    cases h
  | ok lexemes => exact ⟨lexemes, rfl⟩

/-- **The spans of a query are those of its text.** Names stand at their spans, functions, selectors
and qualifiers in some case of their letters; what is made of others runs from its first token to
its last; each part lies inside the part it belongs to, behind the parts before it; and an omitted
selector stands empty where the name of its event starts. -/
theorem parse_spans_faithful {text : String} {q : Query Span} (h : Query.parse text = .ok q) :
    (∀ n ∈ q.nodes, n.part.Spelled (SpanText text.toList n.place)) ∧
    (∃ lexemes t, lex text.toList = .ok lexemes ∧ t.Derives lexemes ∧
      q = t.described.map (span text.toList) ∧ q.Runs text.toList t) ∧
    q.Nested ∧
    OmittedAtEvent q.select.selector q.select.event ∧
    ∀ j ∈ q.joins, OmittedAtEvent j.selector j.event := by
  obtain ⟨lexemes, hlex⟩ := Query.exists_lexemes_of_parse h
  obtain ⟨t, ht, hknown⟩ := Query.exists_tree_of_parse hlex h
  obtain rfl := Except.ok.inj (h.symm.trans (Query.parse_eq_ok hlex ht hknown))
  refine ⟨?_, ⟨lexemes, t, hlex, QueryTree.derives_iff.mpr ht, rfl, t.runs _⟩, ?_, ?_, ?_⟩
  · rw [Query.nodes_map, List.forall_mem_map]
    refine t.spelled (fun r => SpanText text.toList (span text.toList r)) (fun n hn => ?_)
      (fun k p hk => ?_) (List.Subset.refl _) hknown
    · rw [ht] at hn
      obtain ⟨word, hspelled, htext⟩ := exists_spanText hlex hn
      rw [← hspelled.ident n.value rfl]
      exact htext
    · rw [ht] at hk
      obtain ⟨word, hspelled, htext⟩ := exists_spanText hlex hk
      exact ⟨word, htext, hspelled.keyword k rfl⟩
  · exact t.nested (by rw [ht]; exact lex_ordered hlex)
  · exact t.select.event.omittedAtEvent _
  · intro j hj
    obtain ⟨x, hx, rfl⟩ := List.mem_map.mp hj
    obtain ⟨u, -, rfl⟩ := List.mem_map.mp hx
    exact u.event.omittedAtEvent _

/-- Lines that end in two ways, a comment, capitals, and names of one to four bytes a letter. -/
def spreadText : String :=
  "SELECT first\r\n  événement (a as 𝒃)\r\n-- why\njoin BEFORE 日 (using x y Sum(z) as w,)"

def spreadQuery : Query Span where
  select := ⟨⟨.first, ⟨⟨0, 7⟩, ⟨0, 12⟩⟩⟩, ⟨"événement", ⟨⟨1, 2⟩, ⟨1, 11⟩⟩⟩,
    [.reference ⟨"a", ⟨⟨1, 13⟩, ⟨1, 14⟩⟩⟩ ⟨"𝒃", ⟨⟨1, 18⟩, ⟨1, 20⟩⟩⟩ ⟨⟨1, 13⟩, ⟨1, 20⟩⟩],
    ⟨⟨0, 0⟩, ⟨1, 21⟩⟩⟩
  joins := [⟨⟨.before, ⟨⟨3, 5⟩, ⟨3, 11⟩⟩⟩, ⟨.omitted, ⟨⟨3, 12⟩, ⟨3, 12⟩⟩⟩,
    ⟨"日", ⟨⟨3, 12⟩, ⟨3, 13⟩⟩⟩, [⟨"x", ⟨⟨3, 21⟩, ⟨3, 22⟩⟩⟩, ⟨"y", ⟨⟨3, 23⟩, ⟨3, 24⟩⟩⟩],
    [.aggregation ⟨.sum, ⟨⟨3, 25⟩, ⟨3, 28⟩⟩⟩ ⟨"z", ⟨⟨3, 29⟩, ⟨3, 30⟩⟩⟩ ⟨"w", ⟨⟨3, 35⟩, ⟨3, 36⟩⟩⟩
      ⟨⟨3, 25⟩, ⟨3, 36⟩⟩], none, ⟨⟨3, 0⟩, ⟨3, 38⟩⟩⟩]
  place := ⟨⟨0, 0⟩, ⟨3, 38⟩⟩

/-- Columns are counted in 16-bit units, so the wide letter takes two. -/
theorem spreadText_spans : Query.parse spreadText = .ok spreadQuery ∧ spreadQuery.Nested ∧
    ∀ n ∈ spreadQuery.nodes, n.part.Spelled (SpanText spreadText.toList n.place) := by
  have hparse : Query.parse spreadText = .ok spreadQuery := by decide +kernel
  obtain ⟨hspelled, -, hnested, -⟩ := parse_spans_faithful hparse
  exact ⟨hparse, hnested, hspelled⟩

end EventQuery
