import EventQuery.Proofs.Query.Spans

/-! The innermost node at a position. In the list of nodes of a nested query, a node holds those
behind it that lie in its part of the query and ends before all others (`Query.Nested.leads`). So of
the nodes that contain a position each encloses the next, and the search ends at the last of them
(`Query.Nested.nodeAt?_eq_getLast?`). -/

namespace EventQuery

open Grammar Source

/-- The part is made of further parts. -/
def Part.isWhole : Part → Bool
  | .query | .select | .join | .column | .filter => true
  | _ => false

/-- The first node holds the second, or ends before it starts. -/
def Node.Leads (a b : Node Span) : Prop :=
  a.part.isWhole = true ∧ a.place.encloses b.place = true ∨ a.place.stop ≤ b.place.start

/-! ## Enclosure -/

theorem Span.encloses_iff {s t : Span} :
    s.encloses t = true ↔ s.start ≤ t.start ∧ t.stop ≤ s.stop := by
  rw [encloses, Bool.and_eq_true, decide_eq_true_eq, decide_eq_true_eq]

theorem Span.contains_iff {s : Span} {p : Position} :
    s.contains p = true ↔ s.start ≤ p ∧ p < s.stop := by
  rw [contains, Bool.and_eq_true, decide_eq_true_eq, decide_eq_true_eq]

theorem Span.encloses_refl (s : Span) : s.encloses s = true :=
  encloses_iff.mpr ⟨Position.le_refl _, Position.le_refl _⟩

theorem Span.encloses_trans {s t u : Span} (hst : s.encloses t = true) (htu : t.encloses u = true) :
    s.encloses u = true := by
  rw [encloses_iff] at hst htu ⊢
  exact ⟨Position.le_trans hst.1 htu.1, Position.le_trans htu.2 hst.2⟩

theorem Span.contains_of_encloses {s t : Span} {p : Position} (hst : s.encloses t = true)
    (ht : t.contains p = true) : s.contains p = true := by
  rw [encloses_iff] at hst
  rw [contains_iff] at ht ⊢
  exact ⟨Position.le_trans hst.1 ht.1, Position.lt_of_lt_of_le ht.2 hst.2⟩

/-- Two nodes at one position do not lie one behind the other. -/
theorem Node.Leads.encloses {a b : Node Span} (h : a.Leads b) {p : Position}
    (ha : a.place.contains p = true) (hb : b.place.contains p = true) :
    a.part.isWhole = true ∧ a.place.encloses b.place = true := by
  rcases h with h | h
  · exact h
  · rw [Span.contains_iff] at ha hb
    have hlt := Position.lt_of_lt_of_le ha.2 (Position.le_trans h hb.1)
    exact absurd (Position.le_refl p) (Position.not_le.mpr hlt)

/-! ## Nodes of a whole and of its parts -/

/-- The nodes lie inside the span, each leading those behind it. -/
structure Span.Holds (place : Span) (nodes : List (Node Span)) : Prop where
  inside : ∀ n ∈ nodes, place.encloses n.place = true
  leads : nodes.Pairwise Node.Leads

theorem Span.holds_singleton (n : Node Span) : n.place.Holds [n] :=
  ⟨fun _ h => List.mem_singleton.mp h ▸ encloses_refl _, List.pairwise_singleton _ _⟩

/-- A whole in front of the nodes of its parts, given part by part with the span of each. -/
theorem Span.holds_cons (whole : Node Span) (hwhole : whole.part.isWhole = true)
    {parts : List (Span × List (Node Span))} (hdivided : whole.place.Divided (parts.map (·.1)))
    (hparts : ∀ x ∈ parts, x.1.Holds x.2) :
    whole.place.Holds (whole :: parts.flatMap (·.2)) := by
  have hinside : ∀ n ∈ parts.flatMap (·.2), whole.place.encloses n.place = true := by
    intro n hn
    obtain ⟨x, hx, hn⟩ := List.mem_flatMap.mp hn
    exact encloses_trans (hdivided.inside x.1 (List.mem_map_of_mem hx)) ((hparts x hx).inside n hn)
  refine ⟨List.forall_mem_cons.mpr ⟨encloses_refl _, hinside⟩, .cons ?_ ?_⟩
  · exact fun n hn => .inl ⟨hwhole, hinside n hn⟩
  · refine List.pairwise_flatMap.mpr ⟨fun x hx => (hparts x hx).leads, ?_⟩
    refine List.Pairwise.imp_of_mem ?_ (List.pairwise_map.mp hdivided.apart)
    intro x y hx hy hxy m hm n hn
    -- Between nodes of two parts lie the end of the first part and the start of the second.
    have hmx := (encloses_iff.mp ((hparts x hx).inside m hm)).2
    have hyn := (encloses_iff.mp ((hparts y hy).inside n hn)).1
    exact .inr (Position.le_trans hmx (Position.le_trans hxy hyn))

/-- Parts that are single nodes. -/
def leafParts (nodes : List (Node Span)) : List (Span × List (Node Span)) :=
  nodes.map fun n => (n.place, [n])

theorem map_fst_leafParts (nodes : List (Node Span)) :
    (leafParts nodes).map (·.1) = nodes.map (·.place) := by
  rw [leafParts, List.map_map]
  rfl

theorem flatMap_leafParts (nodes : List (Node Span)) :
    (leafParts nodes).flatMap (·.2) = nodes := by
  rw [leafParts, List.flatMap_map, List.flatMap_singleton']

theorem holds_of_mem_leafParts {nodes : List (Node Span)} :
    ∀ x ∈ leafParts nodes, x.1.Holds x.2 :=
  List.forall_mem_map.mpr fun n _ => Span.holds_singleton n

theorem Span.holds_leaves (whole : Node Span) (hwhole : whole.part.isWhole = true)
    {leaves : List (Node Span)} (h : whole.place.Divided (leaves.map (·.place))) :
    whole.place.Holds (whole :: leaves) := by
  rw [← map_fst_leafParts] at h
  have hholds := holds_cons whole hwhole h holds_of_mem_leafParts
  rwa [flatMap_leafParts] at hholds

/-! ## The nodes of a query -/

theorem Column.Nested.holds {c : Column Span} (h : c.Nested) (clause : Clause) :
    c.place.Holds (c.nodes clause) := by
  cases c with
  | reference source label place => exact Span.holds_leaves ⟨clause, .column, place⟩ rfl h
  | aggregation function argument label place =>
    exact Span.holds_leaves ⟨clause, .column, place⟩ rfl h

theorem Filter.Nested.holds {f : Filter Span} (h : f.Nested) (clause : Clause) :
    f.place.Holds (f.nodes clause) :=
  Span.holds_leaves ⟨clause, .filter, f.place⟩ rfl h

/-- The columns of a clause as parts of it. -/
def columnParts (clause : Clause) (columns : List (Column Span)) :
    List (Span × List (Node Span)) :=
  columns.map fun c => (c.place, c.nodes clause)

theorem map_fst_columnParts (clause : Clause) (columns : List (Column Span)) :
    (columnParts clause columns).map (·.1) = columns.map (·.place) := by
  rw [columnParts, List.map_map]
  rfl

theorem flatMap_columnParts (clause : Clause) (columns : List (Column Span)) :
    (columnParts clause columns).flatMap (·.2) = columns.flatMap (·.nodes clause) := by
  rw [columnParts, List.flatMap_map]

theorem holds_of_mem_columnParts {columns : List (Column Span)} (h : ∀ c ∈ columns, c.Nested)
    {clause : Clause} : ∀ x ∈ columnParts clause columns, x.1.Holds x.2 :=
  List.forall_mem_map.mpr fun c hc => (h c hc).holds clause

theorem SelectClause.Nested.holds {s : SelectClause Span} (h : s.Nested) :
    s.place.Holds s.nodes := by
  let leaves : List (Node Span) := [⟨.base, .selector s.selector.value, s.selector.place⟩,
    ⟨.base, .event s.event.value, s.event.place⟩]
  let parts := leafParts leaves ++ columnParts .base s.columns
  have hplaces : parts.map (·.1) =
      s.selector.place :: s.event.place :: s.columns.map (·.place) := by
    rw [List.map_append, map_fst_leafParts, map_fst_columnParts]
    rfl
  have hnodes : parts.flatMap (·.2) = leaves ++ s.columns.flatMap (·.nodes .base) := by
    rw [List.flatMap_append, flatMap_leafParts, flatMap_columnParts]
  have hholds : ∀ x ∈ parts, x.1.Holds x.2 :=
    List.forall_mem_append.mpr ⟨holds_of_mem_leafParts, holds_of_mem_columnParts h.columns⟩
  have hselect := Span.holds_cons ⟨.base, .select, s.place⟩ rfl (hplaces ▸ h.parts) hholds
  rwa [hnodes] at hselect

theorem JoinClause.Nested.holds {j : JoinClause Span} (h : j.Nested) (index : Nat) :
    j.place.Holds (j.nodes index) := by
  let clause := Clause.join index
  let leaves : List (Node Span) := [⟨clause, .qualifier j.qualifier.value, j.qualifier.place⟩,
    ⟨clause, .selector j.selector.value, j.selector.place⟩,
    ⟨clause, .event j.event.value, j.event.place⟩]
  let entities : List (Node Span) := j.entities.map fun e => ⟨clause, .entity e.value, e.place⟩
  let filters := (j.filter.map fun f => (f.place, f.nodes clause)).toList
  let parts := leafParts leaves ++ leafParts entities ++ columnParts clause j.columns ++ filters
  have hplaces : parts.map (·.1) = j.qualifier.place :: j.selector.place :: j.event.place ::
      (j.entities.map (·.place) ++ j.columns.map (·.place) ++
        (j.filter.map (·.place)).toList) := by
    have hentities : entities.map (·.place) = j.entities.map (·.place) := by
      rw [List.map_map]
      rfl
    have hfilters : filters.map (·.1) = (j.filter.map (·.place)).toList := by
      cases hf : j.filter <;> simp [filters, hf]
    rw [List.map_append, List.map_append, List.map_append, map_fst_leafParts, map_fst_leafParts,
      map_fst_columnParts, hentities, hfilters]
    rfl
  have hnodes : parts.flatMap (·.2) = leaves ++ entities ++ j.columns.flatMap (·.nodes clause) ++
      (j.filter.map (·.nodes clause)).getD [] := by
    have hfilters : filters.flatMap (·.2) = (j.filter.map (·.nodes clause)).getD [] := by
      cases hf : j.filter <;> simp [filters, hf]
    rw [List.flatMap_append, List.flatMap_append, List.flatMap_append, flatMap_leafParts,
      flatMap_leafParts, flatMap_columnParts, hfilters]
  have hholds : ∀ x ∈ parts, x.1.Holds x.2 := by
    have hfilters : ∀ x ∈ filters, x.1.Holds x.2 := by
      intro x hx
      obtain ⟨f, hf, rfl⟩ := Option.map_eq_some_iff.mp (Option.mem_toList.mp hx)
      exact (h.filter f hf).holds clause
    have hleaves : ∀ x ∈ leafParts leaves ++ leafParts entities, x.1.Holds x.2 :=
      List.forall_mem_append.mpr ⟨holds_of_mem_leafParts, holds_of_mem_leafParts⟩
    refine List.forall_mem_append.mpr ⟨?_, hfilters⟩
    exact List.forall_mem_append.mpr ⟨hleaves, holds_of_mem_columnParts h.columns⟩
  have hjoin := Span.holds_cons ⟨clause, .join, j.place⟩ rfl (hplaces ▸ h.parts) hholds
  rwa [hnodes] at hjoin

theorem joinNodes_eq_flatMap (index : Nat) (js : List (JoinClause Span)) :
    joinNodes index js = (js.zipIdx index).flatMap fun x => x.1.nodes x.2 := by
  induction js generalizing index with
  | nil => rfl
  | cons j js ih => rw [joinNodes, List.zipIdx_cons, List.flatMap_cons, ih]

theorem Query.Nested.holds {q : Query Span} (h : q.Nested) : q.place.Holds q.nodes := by
  let joins := q.joins.zipIdx.map fun x => (x.1.place, x.1.nodes x.2)
  let parts := (q.select.place, q.select.nodes) :: joins
  have hplaces : parts.map (·.1) = q.select.place :: q.joins.map (·.place) := by
    have hjoins : joins.map (·.1) = (q.joins.zipIdx.map Prod.fst).map (·.place) := by
      rw [List.map_map, List.map_map]
      rfl
    rw [List.map_cons, hjoins, List.zipIdx_map_fst]
  have hnodes : parts.flatMap (·.2) = q.select.nodes ++ joinNodes 0 q.joins := by
    rw [List.flatMap_cons, List.flatMap_map, joinNodes_eq_flatMap]
  have hholds : ∀ x ∈ parts, x.1.Holds x.2 := by
    refine List.forall_mem_cons.mpr ⟨h.select.holds, List.forall_mem_map.mpr fun x hx => ?_⟩
    exact (h.joins x.1 (List.fst_mem_of_mem_zipIdx hx)).holds x.2
  have hquery := Span.holds_cons ⟨.base, .query, q.place⟩ rfl (hplaces ▸ h.clauses) hholds
  rwa [hnodes] at hquery

/-! ## The search -/

/-- When the candidate encloses all further nodes and each of these those behind it, the last one is
the best. -/
theorem Query.foldl_inner_some {best : Node Span} {nodes : List (Node Span)}
    (h : (best :: nodes).Pairwise fun a b => a.place.encloses b.place = true) :
    nodes.foldl inner (some best) = (best :: nodes).getLast? := by
  induction nodes generalizing best with
  | nil => rfl
  | cons n nodes ih =>
    obtain ⟨hbest, hnodes⟩ := List.pairwise_cons.mp h
    have hinner : inner (some best) n = some n := if_pos (hbest n List.mem_cons_self)
    rw [List.foldl_cons, hinner, ih hnodes, List.getLast?_cons_cons]

theorem Query.foldl_inner {nodes : List (Node Span)}
    (h : nodes.Pairwise fun a b => a.place.encloses b.place = true) :
    nodes.foldl inner none = nodes.getLast? := by
  cases nodes with
  | nil => rfl
  | cons n nodes => exact foldl_inner_some h

section
variable {q : Query Span} (h : q.Nested) (p : Position)
include h

/-- Of the nodes at a position, each holds those behind it. -/
theorem Query.Nested.pairwise_at : (q.nodes.filter (·.place.contains p)).Pairwise fun a b =>
    a.part.isWhole = true ∧ a.place.encloses b.place = true := by
  refine List.Pairwise.imp_of_mem ?_ (h.holds.leads.filter _)
  intro a b ha hb hleads
  exact hleads.encloses (List.mem_filter.mp ha).2 (List.mem_filter.mp hb).2

theorem Query.Nested.nodeAt?_eq_getLast? :
    q.nodeAt? p = (q.nodes.filter (·.place.contains p)).getLast? :=
  foldl_inner ((h.pairwise_at p).imp And.right)

/-- The query holds all its nodes and is one of them. -/
theorem Query.Nested.nodeAt?_eq_none_iff : q.nodeAt? p = none ↔ q.place.contains p = false := by
  rw [h.nodeAt?_eq_getLast?, List.getLast?_eq_none_iff, List.filter_eq_nil_iff]
  constructor
  · intro hnone
    exact Bool.eq_false_iff.mpr (hnone ⟨.base, .query, q.place⟩ List.mem_cons_self)
  · intro hout n hn hp
    rw [Span.contains_of_encloses (h.holds.inside n hn) hp] at hout
    cases hout

/-- Of two nodes at a position one encloses the other. -/
theorem Query.Nested.encloses_total : ∀ a ∈ q.nodes.filter (·.place.contains p),
    ∀ b ∈ q.nodes.filter (·.place.contains p),
      a.place.encloses b.place = true ∨ b.place.encloses a.place = true := by
  intro a ha b hb
  obtain ⟨before, after, hsplit⟩ := List.append_of_mem ha
  have hpairwise := h.pairwise_at p
  rw [hsplit, List.pairwise_append, List.pairwise_cons] at hpairwise
  rw [hsplit, List.mem_append, List.mem_cons] at hb
  rcases hb with hb | rfl | hb
  · exact .inr (hpairwise.2.2 b hb a List.mem_cons_self).2
  · exact .inl (Span.encloses_refl b.place)
  · exact .inl (hpairwise.2.1.1 b hb).2

/-- The last node at a position lies inside all of them. -/
theorem Query.Nested.encloses_last {n : Node Span}
    (hn : (q.nodes.filter (·.place.contains p)).getLast? = some n) :
    ∀ m ∈ q.nodes.filter (·.place.contains p), m.place.encloses n.place = true := by
  obtain ⟨init, hinit⟩ := List.getLast?_eq_some_iff.mp hn
  have hpairwise := h.pairwise_at p
  rw [hinit, List.pairwise_append] at hpairwise
  rw [hinit]
  intro m hm
  rcases List.mem_append.mp hm with hm | hm
  · exact (hpairwise.2.2 m hm n List.mem_cons_self).2
  · rw [List.mem_singleton.mp hm]
    exact Span.encloses_refl n.place

variable {p}

/-- A node without parts that contains the position is the one that is found. -/
theorem Query.Nested.nodeAt?_eq_some {n : Node Span} (hn : n ∈ q.nodes)
    (hleaf : n.part.isWhole = false) (hp : n.place.contains p = true) : q.nodeAt? p = some n := by
  rw [h.nodeAt?_eq_getLast?]
  have hmem : n ∈ q.nodes.filter (·.place.contains p) := List.mem_filter.mpr ⟨hn, hp⟩
  obtain ⟨before, after, hsplit⟩ := List.append_of_mem hmem
  have hpairwise := h.pairwise_at p
  rw [hsplit, List.pairwise_append, List.pairwise_cons] at hpairwise
  -- A node behind it at the same position would be inside it.
  have hafter : after = [] := by
    refine List.eq_nil_iff_forall_not_mem.mpr fun m hm => ?_
    have hwhole := (hpairwise.2.1.1 m hm).1
    rw [hleaf] at hwhole
    cases hwhole
  rw [hsplit, hafter, List.getLast?_concat]

theorem Query.Nested.mem_of_nodeAt? {n : Node Span} (hn : q.nodeAt? p = some n) :
    n ∈ q.nodes ∧ n.place.contains p = true := by
  rw [h.nodeAt?_eq_getLast?] at hn
  exact List.mem_filter.mp (List.mem_of_getLast? hn)

end

theorem Query.nested_of_parse {text : String} {q : Query Span} (h : Query.parse text = .ok q) :
    q.Nested := by
  obtain ⟨lexemes, hlex⟩ := exists_lexemes_of_parse h
  obtain ⟨t, ht, hknown⟩ := exists_tree_of_parse hlex h
  rw [parse_eq_ok hlex ht hknown] at h
  cases h
  exact QueryTree.nested (ht ▸ lex_ordered hlex)

/-- **The innermost node is found.** There is none outside the query. Inside it, the nodes at the
position lie one in the other, and the one that is found is the last of them and lies in all the
others. -/
theorem innermost_node_found {text : String} {q : Query Span} (h : Query.parse text = .ok q)
    (p : Position) :
    (q.nodeAt? p = none ↔ q.place.contains p = false) ∧
    (q.place.contains p = true →
      (∀ a ∈ q.nodes.filter (·.place.contains p), ∀ b ∈ q.nodes.filter (·.place.contains p),
        a.place.encloses b.place = true ∨ b.place.encloses a.place = true) ∧
      ∃ n, q.nodeAt? p = some n ∧ (q.nodes.filter (·.place.contains p)).getLast? = some n ∧
        ∀ m ∈ q.nodes.filter (·.place.contains p), m.place.encloses n.place = true) := by
  have hnested := Query.nested_of_parse h
  refine ⟨hnested.nodeAt?_eq_none_iff p, fun hp => ⟨hnested.encloses_total p, ?_⟩⟩
  have hsome : q.nodeAt? p ≠ none := by
    intro hnone
    rw [(hnested.nodeAt?_eq_none_iff p).mp hnone] at hp
    cases hp
  obtain ⟨n, hn⟩ := Option.ne_none_iff_exists'.mp hsome
  have hlast := hn
  rw [hnested.nodeAt?_eq_getLast?] at hlast
  exact ⟨n, hn, hlast, hnested.encloses_last p hlast⟩

/-- The argument of the sum lies in its column, in the join and in the query. -/
theorem spreadText_argument_found : Query.parse spreadText = .ok spreadQuery ∧
    (spreadQuery.nodes.filter (·.place.contains ⟨3, 29⟩)).map (·.part) =
      [.query, .join, .column, .source "z"] ∧
    ∃ n, spreadQuery.nodeAt? ⟨3, 29⟩ = some n ∧ n.part = .source "z" ∧
      ∀ m ∈ spreadQuery.nodes.filter (·.place.contains ⟨3, 29⟩),
        m.place.encloses n.place = true := by
  have hparse : Query.parse spreadText = .ok spreadQuery := by decide +kernel
  obtain ⟨-, n, hn, hlast, hencloses⟩ := (innermost_node_found hparse ⟨3, 29⟩).2 (by decide)
  refine ⟨hparse, by decide, n, hn, ?_, hencloses⟩
  have hpart := congrArg (Option.map (·.part)) hlast
  rw [← List.getLast?_map] at hpart
  exact (Option.some.inj hpart).symm

end EventQuery
