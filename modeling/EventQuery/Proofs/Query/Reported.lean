import EventQuery.Proofs.Query.Fitting
import EventQuery.Proofs.Query.Nesting
import EventQuery.Query.Node

/-! Where a query is reported not to fit: at a node of the clause that does not
(`Validation.select_error`, `Validation.join_error`). The nodes of a derivation go forward, from
their first token to their last. -/

namespace EventQuery

open Outcome

variable {ρ : Type} {catalog : Catalog} {base event : Event}

/-! ## The node of a fault -/

/-- The places that a fault of a column is reported at are those of its nodes. -/
theorem Column.exists_node (c : Column ρ) (clause : Clause) {place : ρ}
    (h : place = c.place ∨ place = c.label.place ∨ place = c.input.place) :
    ∃ n ∈ c.nodes clause, n.place = place := by
  cases c with
  | reference source label whole =>
    rcases h with h | h | h
    · exact ⟨⟨clause, .column, whole⟩, by simp [Column.nodes], h.symm⟩
    · exact ⟨⟨clause, .label label.value, label.place⟩, by simp [Column.nodes], h.symm⟩
    · exact ⟨⟨clause, .source source.value, source.place⟩, by simp [Column.nodes], h.symm⟩
  | aggregation function argument label whole =>
    rcases h with h | h | h
    · exact ⟨⟨clause, .column, whole⟩, by simp [Column.nodes], h.symm⟩
    · exact ⟨⟨clause, .label label.value, label.place⟩, by simp [Column.nodes], h.symm⟩
    · exact ⟨⟨clause, .source argument.value, argument.place⟩, by simp [Column.nodes], h.symm⟩

theorem Column.clause_of_mem_nodes {c : Column ρ} {clause : Clause} :
    ∀ n ∈ c.nodes clause, n.clause = clause ∧ n.part ≠ .query := by
  cases c <;> simp [Column.nodes]

theorem SelectClause.clause_of_mem_nodes {s : SelectClause ρ} :
    ∀ n ∈ s.nodes, n.clause = .base ∧ n.part ≠ .query := by
  refine List.forall_mem_append.mpr ⟨by simp, fun n hn => ?_⟩
  obtain ⟨c, -, hn⟩ := List.mem_flatMap.mp hn
  exact Column.clause_of_mem_nodes n hn

/-- The nodes of a join belong to it and to no other clause. -/
theorem JoinClause.clause_of_mem_nodes {j : JoinClause ρ} {i : Nat} :
    ∀ n ∈ j.nodes i, n.clause = .join i ∧ n.part ≠ .query := by
  refine List.forall_mem_append.mpr ⟨List.forall_mem_append.mpr ⟨by simp, fun n hn => ?_⟩, ?_⟩
  · obtain ⟨c, -, hn⟩ := List.mem_flatMap.mp hn
    exact Column.clause_of_mem_nodes n hn
  · cases j.filter <;> simp [Filter.nodes]

namespace Validation

variable {e : Located ρ Fault}

theorem failUnless_error {condition : Bool} {fault : Fault} {place : ρ}
    (h : failUnless condition fault place = .error e) : e.place = place := by
  cases condition with
  | true => cases h
  | false =>
    cases h
    rfl

theorem event_error {name : Located ρ String} (h : Validation.event catalog name = .error e) :
    e.place = name.place := by
  unfold Validation.event at h
  split at h
  · cases h
  · cases h
    rfl

/-- A column is reported as a whole where it is an aggregation, else at the name that is at
fault. -/
theorem selectColumn_error {c : Column ρ} (h : selectColumn event c = .error e) :
    e.place = c.place ∨ e.place = c.label.place ∨ e.place = c.input.place := by
  rcases bind_eq_error_iff.mp h with h | ⟨_, _, h⟩
  · exact .inr (.inl (failUnless_error h))
  · rcases bind_eq_error_iff.mp h with h | ⟨_, _, h⟩
    · exact .inl (failUnless_error h)
    · exact .inr (.inr (failUnless_error h))

theorem joinColumn_error {c : Column ρ} (h : joinColumn event c = .error e) :
    e.place = c.label.place ∨ e.place = c.input.place := by
  rcases bind_eq_error_iff.mp h with h | ⟨_, _, h⟩
  · exact .inl (failUnless_error h)
  · exact .inr (failUnless_error h)

/-- A base selection that does not fit is reported at its event or in one of its columns. -/
theorem select_error {s : SelectClause ρ} (h : Validation.select catalog s = .error e) :
    ∃ n ∈ s.nodes, n.place = e.place := by
  have hevent : ∃ n ∈ s.nodes, n.place = s.event.place :=
    ⟨⟨.base, .event s.event.value, s.event.place⟩, by simp [SelectClause.nodes], rfl⟩
  rcases bind_eq_error_iff.mp h with h | ⟨event, _, h⟩
  · rwa [event_error h]
  rcases bind_eq_error_iff.mp h with h | ⟨_, _, h⟩
  · rwa [failUnless_error h]
  rcases bind_eq_error_iff.mp h with h | ⟨_, _, h⟩
  · obtain ⟨c, hc, h⟩ := exists_of_forM_eq_error h
    obtain ⟨n, hn, hplace⟩ := c.exists_node .base (selectColumn_error h)
    exact ⟨n, List.mem_append_right _ (List.mem_flatMap.mpr ⟨c, hc, hn⟩), hplace⟩
  · cases h

/-- A missing default is reported at the event of the join. -/
theorem requestedKeys_error {j : JoinClause ρ} (h : requestedKeys event j = .error e) :
    e.place = j.event.place ∨ ∃ x ∈ j.entities, e.place = x.place := by
  unfold requestedKeys at h
  split at h
  · split at h
    · cases h
    · cases h
      exact .inl rfl
  · rcases bind_eq_error_iff.mp h with h | ⟨_, _, h⟩
    · obtain ⟨x, hx, hfail⟩ := exists_of_forM_eq_error h
      exact .inr ⟨x, hx, failUnless_error hfail⟩
    · cases h

/-- A default key has the place of the event, as there is no name for it. -/
theorem place_of_requestedKeys {j : JoinClause ρ} {requested : List (Located ρ String)}
    (h : requestedKeys event j = .ok requested) {x : Located ρ String} (hx : x ∈ requested) :
    x.place = j.event.place ∨ x ∈ j.entities := by
  unfold requestedKeys at h
  split at h
  · split at h
    · cases h
      rw [List.mem_singleton.mp hx]
      exact .inl rfl
    · cases h
  · obtain ⟨-, h⟩ := seq_eq_ok_iff.mp h
    cases h
    exact .inr hx

/-- Keys are reported where they are named, and at the event when none is named. -/
theorem keys_error {j : JoinClause ρ} (h : Validation.keys base event j = .error e) :
    e.place = j.event.place ∨ ∃ x ∈ j.entities, e.place = x.place := by
  rcases bind_eq_error_iff.mp h with h | ⟨requested, hrequested, h⟩
  · exact requestedKeys_error h
  rcases bind_eq_error_iff.mp h with h | ⟨_, _, h⟩
  · obtain ⟨x, hx, hfail⟩ := exists_of_forM_eq_error h
    rw [failUnless_error hfail]
    rcases place_of_requestedKeys hrequested hx with h | h
    · exact .inl h
    · exact .inr ⟨x, h, rfl⟩
  · cases h

theorem filter_error {filter : Option (Filter ρ)}
    (h : (match filter with
      | some f => column event f.column
      | none => pure ()) = .error e) : ∃ f ∈ filter, e.place = f.column.place := by
  cases filter with
  | none => cases h
  | some f => exact ⟨f, rfl, failUnless_error h⟩

/-- A join that does not fit is reported at its event, an entity, in a column or at the column of
its filter. -/
theorem join_error {j : JoinClause ρ} (h : Validation.join catalog base j = .error e) (i : Nat) :
    ∃ n ∈ j.nodes i, n.place = e.place := by
  have hevent : ∃ n ∈ j.nodes i, n.place = j.event.place :=
    ⟨⟨.join i, .event j.event.value, j.event.place⟩, by simp [JoinClause.nodes], rfl⟩
  have hcolumn {c : Column ρ} (hc : c ∈ j.columns)
      (h : e.place = c.place ∨ e.place = c.label.place ∨ e.place = c.input.place) :
      ∃ n ∈ j.nodes i, n.place = e.place := by
    obtain ⟨n, hn, hplace⟩ := c.exists_node (.join i) h
    have hmem := List.mem_flatMap.mpr ⟨c, hc, hn⟩
    exact ⟨n, List.mem_append_left _ (List.mem_append_right _ hmem), hplace⟩
  rcases bind_eq_error_iff.mp h with h | ⟨event, _, h⟩
  · rwa [event_error h]
  rcases bind_eq_error_iff.mp h with h | ⟨keys, _, h⟩
  · rcases keys_error h with h | ⟨x, hx, h⟩
    · rwa [h]
    · have hmem : (⟨.join i, .entity x.value, x.place⟩ : Node ρ) ∈ j.entities.map fun e =>
          ⟨.join i, .entity e.value, e.place⟩ := List.mem_map_of_mem hx
      exact ⟨_, List.mem_append_left _ (List.mem_append_left _ (List.mem_append_right _ hmem)),
        h.symm⟩
  rcases bind_eq_error_iff.mp h with h | ⟨_, _, h⟩
  · obtain ⟨c, hc, h⟩ := exists_of_forM_eq_error h
    exact hcolumn hc (.inr (joinColumn_error h))
  have hfilter (h : ∃ f ∈ j.filter, e.place = f.column.place) :
      ∃ n ∈ j.nodes i, n.place = e.place := by
    obtain ⟨f, hf, hplace⟩ := h
    refine ⟨⟨.join i, .filterColumn f.column.value, f.column.place⟩,
      List.mem_append_right _ ?_, hplace.symm⟩
    simp [Option.mem_def.mp hf, Filter.nodes]
  by_cases homitted : j.selector.value = .omitted
  · simp only [if_pos homitted] at h
    rcases bind_eq_error_iff.mp h with h | ⟨_, _, h⟩
    · obtain ⟨c, hc, h⟩ := exists_of_forM_eq_error h
      exact hcolumn hc (.inl (failUnless_error h))
    · exact hfilter (filter_error h)
  · simp only [if_neg homitted] at h
    exact hfilter (filter_error h)

end Validation

/-- The nodes of a join are nodes of the query, under the index of the join. -/
theorem mem_joinNodes {js : List (JoinClause ρ)} {j : JoinClause ρ} {i : Nat} (index : Nat)
    (hj : js[i]? = some j) {n : Node ρ} (hn : n ∈ j.nodes (index + i)) :
    n ∈ joinNodes index js := by
  induction js generalizing index i with
  | nil => cases hj
  | cons k js ih =>
    cases i with
    | zero =>
      cases hj
      exact List.mem_append_left _ hn
    | succ i =>
      refine List.mem_append_right _ (ih (index + 1) hj ?_)
      rwa [Nat.add_assoc, Nat.add_comm 1]

/-- Validation reports at a node of the query, never elsewhere. -/
theorem Query.validate_error {q : Query ρ} {e : Located ρ Fault}
    (h : q.validate catalog = .error e) : ∃ n ∈ q.nodes, n.place = e.place := by
  rcases bind_eq_error_iff.mp h with h | ⟨base, _, h⟩
  · obtain ⟨n, hn, hplace⟩ := Validation.select_error h
    exact ⟨n, List.mem_cons_of_mem _ (List.mem_append_left _ hn), hplace⟩
  · obtain ⟨j, hj, h⟩ := exists_of_forM_eq_error h
    obtain ⟨i, hi⟩ := List.mem_iff_getElem?.mp hj
    obtain ⟨n, hn, hplace⟩ := Validation.join_error h (0 + i)
    exact ⟨n, List.mem_cons_of_mem _ (List.mem_append_right _ (mem_joinNodes 0 hi hn)), hplace⟩

/-! ## The nodes of a derivation -/

namespace Grammar

open Source

/-- The first token of a part does not start behind the end of the last. -/
theorem extent_forward {lexemes : List Lexeme} (h : Ordered lexemes) (hne : lexemes ≠ []) :
    (extent lexemes).start ≤ (extent lexemes).stop := by
  obtain ⟨l, hl⟩ := List.exists_mem_of_ne_nil _ hne
  obtain ⟨hstart, hstop⟩ := extent_encloses h hl
  exact Nat.le_trans hstart (Nat.le_trans (h.forward l hl) hstop)

theorem ColumnTree.forward {c : ColumnTree} (h : Ordered c.lexemes) (clause : Clause) :
    ∀ n ∈ c.described.nodes clause, n.place.start ≤ n.place.stop := by
  have hextent := extent_forward h c.lexemes_ne_nil
  cases c with
  | reference source word label =>
    simp only [described, Column.nodes, List.forall_mem_cons]
    exact ⟨hextent, h.forward (ident source) (by simp [lexemes]),
      h.forward (ident label) (by simp [lexemes]), List.forall_mem_nil _⟩
  | aggregation function lparen argument rparen word label =>
    simp only [described, Column.nodes, List.forall_mem_cons]
    exact ⟨hextent, h.forward (ident function) (by simp [lexemes]),
      h.forward (ident argument) (by simp [lexemes]),
      h.forward (ident label) (by simp [lexemes]), List.forall_mem_nil _⟩

theorem ColumnsTree.forward {c : ColumnsTree} (h : Ordered c.lexemes) (clause : Clause) :
    ∀ n ∈ c.described.flatMap (·.nodes clause), n.place.start ≤ n.place.stop := by
  intro n hn
  rw [described_eq, List.flatMap_map, List.mem_flatMap] at hn
  obtain ⟨column, hcolumn, hn⟩ := hn
  exact column.forward (h.sublist (sublist_of_mem hcolumn)) clause n hn

theorem FilterTree.forward {f : FilterTree} (h : Ordered f.lexemes) (clause : Clause) :
    ∀ n ∈ f.described.nodes clause, n.place.start ≤ n.place.stop := by
  have hliteral : f.literal.described.place = f.literal.lexeme.place := by
    cases f.literal <;> rfl
  simp only [described, Filter.nodes, List.forall_mem_cons, hliteral]
  exact ⟨extent_forward h (List.cons_ne_nil _ _), h.forward (ident f.column) (by simp [lexemes]),
    h.forward ⟨.comparison f.comparison.value, f.comparison.place⟩ (by simp [lexemes]),
    h.forward f.literal.lexeme (by simp [lexemes]), List.forall_mem_nil _⟩

theorem EventTree.forward {e : EventTree} (h : ∀ l ∈ e.lexemes, l.place.start ≤ l.place.stop) :
    e.selector.place.start ≤ e.selector.place.stop ∧ e.event.place.start ≤ e.event.place.stop := by
  cases e with
  | first word event =>
    exact ⟨h ⟨.keyword .first, word⟩ (by simp [lexemes]), h (ident event) (by simp [lexemes])⟩
  | last word event =>
    exact ⟨h ⟨.keyword .last, word⟩ (by simp [lexemes]), h (ident event) (by simp [lexemes])⟩
  | omitted event => exact ⟨Nat.le_refl _, h (ident event) (by simp [lexemes])⟩

theorem SelectTree.forward {s : SelectTree} (h : Ordered s.lexemes) :
    ∀ n ∈ s.described.nodes, n.place.start ≤ n.place.stop := by
  have hcolumns : s.columns.lexemes.Sublist s.lexemes := by
    rw [lexemes]
    exact ((List.sublist_cons_self _ _).trans (List.sublist_append_right _ _)).trans
      (List.sublist_append_left _ _)
  obtain ⟨hselector, hevent⟩ := s.event.forward fun l hl => h.forward l (by simp [lexemes, hl])
  refine List.forall_mem_append.mpr ⟨?_, s.columns.forward (h.sublist hcolumns) .base⟩
  simp only [List.forall_mem_cons]
  exact ⟨extent_forward h (List.cons_ne_nil _ _), hselector, hevent, List.forall_mem_nil _⟩

theorem JoinTree.forward {j : JoinTree} (h : Ordered j.lexemes) (index : Nat) :
    ∀ n ∈ j.described.nodes index, n.place.start ≤ n.place.stop := by
  have hcolumns : j.columns.lexemes.Sublist j.lexemes := by
    rw [lexemes]
    exact ((List.sublist_append_right _ _).trans (List.sublist_append_left _ _)).trans
      (List.sublist_append_left _ _)
  have hfilter : (filterLexemes j.filter).Sublist j.lexemes := by
    rw [lexemes]
    exact (List.sublist_append_right _ _).trans (List.sublist_append_left _ _)
  obtain ⟨hselector, hevent⟩ := j.event.forward fun l hl => h.forward l (by simp [lexemes, hl])
  have hqualifier : j.qualifier.place.start ≤ j.qualifier.place.stop := by
    have hmem := h.forward (qualifierLexeme j.qualifier) (by simp [lexemes])
    unfold qualifierLexeme at hmem
    split at hmem <;> exact hmem
  refine List.forall_mem_append.mpr ⟨List.forall_mem_append.mpr
    ⟨List.forall_mem_append.mpr ⟨?_, ?_⟩, j.columns.forward (h.sublist hcolumns) _⟩, ?_⟩
  · simp only [List.forall_mem_cons]
    exact ⟨extent_forward h (List.cons_ne_nil _ _), hqualifier, hselector, hevent,
      List.forall_mem_nil _⟩
  · refine List.forall_mem_map.mpr fun e he => h.forward (ident e) ?_
    have hmem := (usingNames_sublist j.entities).subset (List.mem_map_of_mem he)
    simp [lexemes, hmem]
  · cases hf : j.filter with
    | none =>
      rw [described, hf]
      exact List.forall_mem_nil _
    | some f =>
      rw [hf] at hfilter
      rw [described, hf]
      exact f.forward (h.sublist hfilter) _

theorem joins_forward {js : List JoinTree} (h : Ordered (js.flatMap JoinTree.lexemes))
    (index : Nat) : ∀ n ∈ joinNodes index (js.map JoinTree.described),
      n.place.start ≤ n.place.stop := by
  induction js generalizing index with
  | nil => exact List.forall_mem_nil _
  | cons j js ih =>
    rw [List.flatMap_cons] at h
    refine List.forall_mem_append.mpr ⟨?_, ih (h.sublist (List.sublist_append_right _ _)) _⟩
    exact j.forward (h.sublist (List.sublist_append_left _ _)) index

/-- Every node of what is read starts where it ends or in front of it, if the tokens are in
order. -/
theorem QueryTree.forward {q : QueryTree} (h : Ordered q.lexemes) :
    ∀ n ∈ q.described.nodes, n.place.start ≤ n.place.stop := by
  have hne : q.lexemes ≠ [] := List.cons_ne_nil _ _
  refine List.forall_mem_append.mpr ⟨List.forall_mem_cons.mpr ⟨extent_forward h hne, ?_⟩, ?_⟩
  · exact q.select.forward (h.sublist (List.sublist_append_left _ _))
  · exact joins_forward (h.sublist (List.sublist_append_right _ _)) 0

end Grammar

end EventQuery
