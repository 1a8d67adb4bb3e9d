import EventQuery.Catalog.Demo
import EventQuery.Editor.Hover
import EventQuery.Proofs.Dataset.Agreement
import EventQuery.Proofs.Query.Innermost
import EventQuery.Proofs.Query.Reported

/-! Hovering over a valid text. Every name of a query that fits the catalog leads somewhere on the
event of its clause (`Query.Fits.resolves`), and the word under a position is the innermost node
there, so something is said exactly on the words that stand for something. -/

namespace EventQuery

open Grammar Source

variable {ρ : Type} {catalog : Catalog} {base event : Event}

/-- Something is said about the part: a name, a function or a word that was written. -/
def Part.isDescribed : Part → Bool
  | .event _ | .qualifier _ | .function _ | .source _ | .label _ | .entity _
  | .filterColumn _ => true
  | .selector s => s ≠ .omitted
  | _ => false

/-- The names in a clause about `event`, which is called `name` there, lead to something. -/
def Part.Resolves (event : Event) (name : String) : Part → Prop
  | .event written => written = name
  | .source c | .filterColumn c => (event.resolve? c).isSome
  | .entity e => (event.entity? e).isSome
  | _ => True

/-- What is said about a part of a clause about `event`. Columns and entities are those of this
event. -/
def Part.Describes (event : Event) (contents : String) : Part → Prop
  | .event _ => contents = event.summary
  | .source c | .filterColumn c => ∃ r, event.resolve? c = some r ∧
      contents = "column " ++ c ++ " on event " ++ event.name ++ ": " ++
        (r.dataType.map (·.text)).getD "identifier" ++ " (" ++ r.origin.text ++ ")"
  | .entity e => ∃ x, event.entity? e = some x ∧
      contents = "entity " ++ e ++ " on event " ++ event.name ++ ": matched on column " ++
        x.idColumn
  | .function f => contents = f.text ++ ": " ++ f.description
  | .label l => contents = "output column " ++ l
  | _ => True

/-- The node belongs to a clause about the event of this name. -/
inductive Query.Owns (q : Query ρ) : String → Node ρ → Prop
  | select {n : Node ρ} : n ∈ q.select.nodes → q.Owns q.select.event.value n
  | join {i : Nat} {j : JoinClause ρ} {n : Node ρ} :
    q.joins[i]? = some j → n ∈ j.nodes i → q.Owns j.event.value n

theorem Part.isWhole_of_isDescribed {part : Part} (h : part.isDescribed = true) :
    part.isWhole = false := by
  cases part <;> first | rfl | cases h

/-! ## The names of a query that fits -/

theorem Column.Fits.resolves {c : Column ρ} (h : c.Fits event) (clause : Clause) (name : String) :
    ∀ n ∈ c.nodes clause, n.part.Resolves event name := by
  cases c with
  | reference source label place =>
    simp only [Column.nodes, List.forall_mem_cons]
    exact ⟨trivial, h.input, trivial, List.forall_mem_nil _⟩
  | aggregation function argument label place =>
    simp only [Column.nodes, List.forall_mem_cons]
    exact ⟨trivial, trivial, h.input, trivial, List.forall_mem_nil _⟩

theorem columns_resolve {columns : List (Column ρ)} (h : ∀ c ∈ columns, c.Fits event)
    (clause : Clause) (name : String) :
    ∀ n ∈ columns.flatMap (·.nodes clause), n.part.Resolves event name := by
  intro n hn
  obtain ⟨c, hc, hn⟩ := List.mem_flatMap.mp hn
  exact (h c hc).resolves clause name n hn

theorem SelectClause.Fits.resolves {s : SelectClause ρ} (h : s.Fits catalog event) :
    ∀ n ∈ s.nodes, n.part.Resolves event s.event.value := by
  refine List.forall_mem_append.mpr ⟨?_, columns_resolve h.columns .base _⟩
  simp only [List.forall_mem_cons]
  exact ⟨trivial, trivial, rfl, List.forall_mem_nil _⟩

/-- The entities of a join are found on its own event, not on that of the base. -/
theorem JoinClause.Fits.resolves {j : JoinClause ρ} (h : j.Fits catalog base event) (i : Nat) :
    ∀ n ∈ j.nodes i, n.part.Resolves event j.event.value := by
  refine List.forall_mem_append.mpr ⟨List.forall_mem_append.mpr
    ⟨List.forall_mem_append.mpr ⟨?_, ?_⟩, columns_resolve h.columns (.join i) _⟩, ?_⟩
  · simp only [List.forall_mem_cons]
    exact ⟨trivial, trivial, trivial, rfl, List.forall_mem_nil _⟩
  · exact List.forall_mem_map.mpr fun e he => h.named e he
  · cases hf : j.filter with
    | none => exact List.forall_mem_nil _
    | some f =>
      simp only [Option.map_some, Option.getD_some, Filter.nodes, List.forall_mem_cons]
      exact ⟨trivial, h.filter f hf, trivial, trivial, List.forall_mem_nil _⟩

/-- Each node but the query itself belongs to a clause, whose event is found, and its names lead to
something there. -/
theorem Query.Fits.resolves {q : Query Span} (h : q.Fits catalog base) {n : Node Span}
    (hn : n ∈ q.nodes) (hpart : n.part ≠ .query) : ∃ name event, q.Owns name n ∧
      q.eventName? n.clause = some name ∧ catalog.find? name = some event ∧
      n.part.Resolves event name := by
  rw [Query.nodes, List.cons_append, List.mem_cons, List.mem_append] at hn
  rcases hn with rfl | hn | hn
  · exact absurd rfl hpart
  · have hclause := (SelectClause.clause_of_mem_nodes n hn).1
    have hresolves := h.select.resolves n hn
    exact ⟨_, base, .select hn, by rw [hclause]; rfl, h.select.found, hresolves⟩
  · rw [joinNodes_eq_flatMap, List.mem_flatMap] at hn
    obtain ⟨⟨j, i⟩, hx, hn⟩ := hn
    have hj : q.joins[i]? = some j := List.mem_zipIdx_iff_getElem?.mp hx
    obtain ⟨event, hfits⟩ := h.joins j (List.mem_of_getElem? hj)
    refine ⟨_, event, .join hj hn, ?_, hfits.found, hfits.resolves i n hn⟩
    rw [(JoinClause.clause_of_mem_nodes n hn).1, eventName?, hj]
    rfl

/-! ## What is said -/

namespace Editor

/-- Nothing is said on signs, literals and whole clauses. -/
theorem isDescribed_of_partSummary? {name? : Option String} {part : Part} {contents : String}
    (h : partSummary? catalog name? part = some contents) : part.isDescribed = true := by
  cases part with
  | selector s =>
    cases s with
    | omitted => cases h
    | _ => rfl
  | query | select | join | column | filter | comparison | literal => cases h
  | _ => rfl

/-- Where a name leads somewhere, what is said is about what it leads to. -/
theorem exists_partSummary? {name : String} {part : Part} (hfound : catalog.find? name = some event)
    (hresolves : part.Resolves event name) (hpart : part.isDescribed = true) :
    ∃ contents, partSummary? catalog (some name) part = some contents ∧
      part.Describes event contents := by
  have hcolumn {column : String} (h : (event.resolve? column).isSome) :
      ∃ contents, columnSummary? event column = some contents ∧
        (Part.source column).Describes event contents := by
    obtain ⟨r, hr⟩ := Option.isSome_iff_exists.mp h
    exact ⟨_, by rw [columnSummary?, hr]; rfl, r, hr, rfl⟩
  cases part with
  | event written =>
    cases hresolves
    exact ⟨event.summary, by rw [partSummary?, hfound]; rfl, rfl⟩
  | source column =>
    obtain ⟨contents, hcontents, hdescribes⟩ := hcolumn hresolves
    exact ⟨contents, by simp [partSummary?, hfound, hcontents], hdescribes⟩
  | filterColumn column =>
    obtain ⟨contents, hcontents, hdescribes⟩ := hcolumn hresolves
    exact ⟨contents, by simp [partSummary?, hfound, hcontents], hdescribes⟩
  | entity entity =>
    obtain ⟨x, hx⟩ := Option.isSome_iff_exists.mp hresolves
    obtain rfl : x.name = entity := Event.name_of_entity? hx
    exact ⟨_, by simp [partSummary?, hfound, entitySummary?, hx], x, hx, rfl⟩
  | function f => exact ⟨_, rfl, rfl⟩
  | label label => exact ⟨_, rfl, rfl⟩
  | qualifier q => cases q <;> exact ⟨_, rfl, trivial⟩
  | selector s =>
    cases s with
    | omitted => cases hpart
    | _ => exact ⟨_, rfl, trivial⟩
  | query | select | join | column | filter | comparison | literal => cases hpart

/-- On a text that parses, what is said is about the innermost node. -/
theorem hover?_of_parse {text : String} {q : Query Span} (hq : Query.parse text = .ok q)
    (p : Position) : hover? catalog text p = (q.nodeAt? p).bind fun n =>
      (partSummary? catalog (q.eventName? n.clause) n.part).map (⟨·, n.place⟩) := by
  simp only [hover?, hq]
  cases q.nodeAt? p with
  | none => rfl
  | some n => exact (Option.map_eq_bind ..).symm

end Editor

open Editor in
/-- **Hovering is exact on valid texts.** Something is said exactly on the events, written
selectors, qualifiers, functions, columns, labels and entities of the query. What is said there is
about that node, and a column or an entity is looked up on the event of the clause the node belongs
to. -/
theorem hover_exact_of_valid {text : String} (h : diagnostics catalog text = []) (p : Position) :
    ∃ q, Query.parse text = .ok q ∧
      ((hover? catalog text p).isSome ↔
        ∃ n ∈ q.nodes, n.part.isDescribed = true ∧ n.place.contains p = true) ∧
      ∀ n ∈ q.nodes, n.part.isDescribed = true → n.place.contains p = true →
        ∃ name event contents, q.Owns name n ∧ catalog.find? name = some event ∧
          hover? catalog text p = some ⟨contents, n.place⟩ ∧ n.part.Describes event contents := by
  obtain ⟨q, hq, hvalid⟩ := diagnostics_eq_nil_iff.mp h
  obtain ⟨base, hfits⟩ := Query.validate_eq_ok_iff.mp hvalid
  have hnested := Query.nested_of_parse hq
  have hsaid : ∀ n ∈ q.nodes, n.part.isDescribed = true → n.place.contains p = true →
      ∃ name event contents, q.Owns name n ∧ catalog.find? name = some event ∧
        hover? catalog text p = some ⟨contents, n.place⟩ ∧ n.part.Describes event contents := by
    intro n hn hpart hp
    have hleaf := Part.isWhole_of_isDescribed hpart
    have hquery : n.part ≠ .query := fun heq => by rw [heq] at hpart; cases hpart
    -- Checking the query has found all that is looked up for the node.
    obtain ⟨name, event, howns, hname, hfound, hresolves⟩ := hfits.resolves hn hquery
    obtain ⟨contents, hcontents, hdescribes⟩ := exists_partSummary? hfound hresolves hpart
    refine ⟨name, event, contents, howns, hfound, ?_, hdescribes⟩
    rw [hover?_of_parse hq, hnested.nodeAt?_eq_some hn hleaf hp, Option.bind_some, hname, hcontents]
    rfl
  refine ⟨q, hq, ⟨fun hsome => ?_, fun ⟨n, hn, hpart, hp⟩ => ?_⟩, hsaid⟩
  · obtain ⟨hover, hhover⟩ := Option.isSome_iff_exists.mp hsome
    rw [hover?_of_parse hq] at hhover
    obtain ⟨n, hn, hsummary⟩ := Option.bind_eq_some_iff.mp hhover
    obtain ⟨contents, hcontents, -⟩ := Option.map_eq_some_iff.mp hsummary
    obtain ⟨hmem, hp⟩ := hnested.mem_of_nodeAt? hn
    exact ⟨n, hmem, isDescribed_of_partSummary? hcontents, hp⟩
  · obtain ⟨_, _, contents, -, -, hhover, -⟩ := hsaid n hn hpart hp
    rw [hhover]
    rfl

/-- The column of the filter is one of the second joined event alone. -/
def loggedInText : String :=
  "select first user_signed_up (plan as plan) " ++
    "join after order_placed (count(event_id) as orders)\n" ++
    "join before user_logged_in (using user_id count(device) as devices, filter(status = 'ok'))"

open Editor in
theorem hover_on_status_of_login :
    diagnostics .demo loggedInText = [] ∧
      ∃ q, Query.parse loggedInText = .ok q ∧ ∃ n ∈ q.nodes, n.part = .filterColumn "status" ∧
        n.place.contains ⟨1, 77⟩ = true ∧ ∃ name event contents, q.Owns name n ∧
          Catalog.demo.find? name = some event ∧
          hover? .demo loggedInText ⟨1, 77⟩ = some ⟨contents, n.place⟩ ∧
          n.part.Describes event contents := by
  have hread : diagnostics .demo loggedInText = [] ∧
      ∃ n ∈ (Query.parse loggedInText).toOption.elim [] Query.nodes,
        n.part = .filterColumn "status" ∧ n.place.contains ⟨1, 77⟩ = true := by
    decide +kernel
  obtain ⟨hvalid, hnode⟩ := hread
  obtain ⟨q, hq, -, hsaid⟩ := hover_exact_of_valid hvalid ⟨1, 77⟩
  rw [hq] at hnode
  obtain ⟨n, hn, hpart, hp⟩ := hnode
  exact ⟨hvalid, q, hq, n, hn, hpart, hp, hsaid n hn (by rw [hpart]; rfl) hp⟩

end EventQuery
