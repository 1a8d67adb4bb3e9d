import EventQuery.Proofs.Query.Grammar
import EventQuery.Proofs.Source.Lexing

/-! The places of the parts of a query lie inside each other as the parts do. The tokens of a part
are some of the tokens of the whole, in the same order, and those of parts side by side do not
mingle; this carries over to the spans from their first tokens to their last. -/

namespace EventQuery

open Grammar Source

/-- The parts lie inside the whole, one behind the other. -/
structure Span.Divided (whole : Span) (parts : List Span) : Prop where
  inside : ∀ s ∈ parts, whole.encloses s = true
  apart : parts.Pairwise fun s t => s.stop ≤ t.start

def Column.Nested : Column Span → Prop
  | .reference source label place => place.Divided [source.place, label.place]
  | .aggregation function argument label place =>
    place.Divided [function.place, argument.place, label.place]

def Filter.Nested (f : Filter Span) : Prop :=
  f.place.Divided [f.column.place, f.comparison.place, f.literal.place]

structure SelectClause.Nested (s : SelectClause Span) : Prop where
  parts : s.place.Divided (s.selector.place :: s.event.place :: s.columns.map (·.place))
  columns : ∀ c ∈ s.columns, c.Nested

structure JoinClause.Nested (j : JoinClause Span) : Prop where
  parts : j.place.Divided (j.qualifier.place :: j.selector.place :: j.event.place ::
    (j.entities.map (·.place) ++ j.columns.map (·.place) ++ (j.filter.map (·.place)).toList))
  columns : ∀ c ∈ j.columns, c.Nested
  filter : ∀ f ∈ j.filter, f.Nested

/-- Each part of the query lies inside the part it belongs to, behind the parts before it. -/
structure Query.Nested (q : Query Span) : Prop where
  clauses : q.place.Divided (q.select.place :: q.joins.map (·.place))
  select : q.select.Nested
  joins : ∀ j ∈ q.joins, j.Nested

/-! ## Tokens in order -/

section
variable {lexemes : List Lexeme}

/-- Some of the tokens of a text are still in order. -/
theorem Source.Ordered.sublist (h : Ordered lexemes) {part : List Lexeme}
    (hpart : part.Sublist lexemes) : Ordered part :=
  ⟨fun l hl => h.forward l (hpart.subset hl), h.apart.sublist hpart⟩

theorem exists_extent_start (h : lexemes ≠ []) :
    ∃ l ∈ lexemes, (extent lexemes).start = l.place.start := by
  obtain ⟨l, rest, rfl⟩ := List.exists_cons_of_ne_nil h
  exact ⟨l, List.mem_cons_self, rfl⟩

theorem exists_extent_stop (h : lexemes ≠ []) :
    ∃ l ∈ lexemes, (extent lexemes).stop = l.place.stop := by
  refine ⟨lexemes.getLast h, List.getLast_mem h, ?_⟩
  rw [extent, List.getLast?_eq_some_getLast h]
  rfl

/-- A token lies between the first token and the last. -/
theorem extent_encloses (h : Ordered lexemes) {l : Lexeme} (hl : l ∈ lexemes) :
    (extent lexemes).start ≤ l.place.start ∧ l.place.stop ≤ (extent lexemes).stop := by
  constructor
  · cases lexemes with
    | nil => cases hl
    | cons first rest =>
      obtain rfl | hl := List.mem_cons.mp hl
      · exact Nat.le_refl _
      · exact Nat.le_trans (h.forward first List.mem_cons_self)
          ((List.pairwise_cons.mp h.apart).1 l hl)
  · obtain rfl | ⟨init, last, rfl⟩ := List.eq_nil_or_concat lexemes
    · cases hl
    · rw [List.concat_eq_append] at h hl ⊢
      have hstop : (extent (init ++ [last])).stop = last.place.stop := by
        rw [extent, List.getLast?_concat]
        rfl
      rw [hstop]
      obtain hl | hl := List.mem_append.mp hl
      · have happart := (List.pairwise_append.mp h.apart).2.2 l hl last List.mem_cons_self
        exact Nat.le_trans happart (h.forward last (by simp))
      · rw [List.mem_singleton.mp hl]

/-- The tokens of the parts are found among those of the whole in their order. -/
theorem divided_of_sublist (text : List Char) (h : Ordered lexemes) (parts : List (List Lexeme))
    (hparts : parts.flatten.Sublist lexemes) (hne : ∀ p ∈ parts, p ≠ []) :
    (span text (extent lexemes)).Divided (parts.map fun p => span text (extent p)) := by
  have hordered := h.sublist hparts
  constructor
  · refine List.forall_mem_map.mpr fun p hp => ?_
    have hmem : ∀ l ∈ p, l ∈ lexemes := fun l hl =>
      hparts.subset (List.mem_flatten.mpr ⟨p, hp, hl⟩)
    obtain ⟨first, hfirst, hstart⟩ := exists_extent_start (hne p hp)
    obtain ⟨last, hlast, hstop⟩ := exists_extent_stop (hne p hp)
    rw [Span.encloses, Bool.and_eq_true, decide_eq_true_eq, decide_eq_true_eq]
    refine ⟨position_mono text ?_, position_mono text ?_⟩
    · rw [hstart]
      exact (extent_encloses h (hmem first hfirst)).1
    · rw [hstop]
      exact (extent_encloses h (hmem last hlast)).2
  · rw [List.pairwise_map]
    have hbetween := (List.pairwise_flatten.mp hordered.apart).2
    refine List.Pairwise.imp_of_mem ?_ hbetween
    intro p p' hp hp' happart
    obtain ⟨last, hlast, hstop⟩ := exists_extent_stop (hne p hp)
    obtain ⟨first, hfirst, hstart⟩ := exists_extent_start (hne p' hp')
    refine position_mono text ?_
    rw [hstop, hstart]
    exact happart last hlast first hfirst

/-- An empty part may stand where another part starts. -/
theorem Span.Divided.insert {whole part : Span} {before after : List Span}
    (h : whole.Divided (before ++ part :: after)) (hpart : part.start ≤ part.stop) :
    whole.Divided (before ++ ⟨part.start, part.start⟩ :: part :: after) := by
  obtain ⟨hinside, happart⟩ := h
  have hwhole := hinside part (by simp)
  rw [Span.encloses, Bool.and_eq_true, decide_eq_true_eq, decide_eq_true_eq] at hwhole
  rw [List.pairwise_append, List.pairwise_cons] at happart
  obtain ⟨hbefore, ⟨hafter, hrest⟩, hbetween⟩ := happart
  constructor
  · intro s hs
    have hcases : s = ⟨part.start, part.start⟩ ∨ s ∈ before ++ part :: after := by
      simp only [List.mem_append, List.mem_cons] at hs ⊢
      exact or_left_comm.mp hs
    obtain rfl | hs := hcases
    · rw [Span.encloses, Bool.and_eq_true, decide_eq_true_eq, decide_eq_true_eq]
      exact ⟨hwhole.1, Position.le_trans hpart hwhole.2⟩
    · exact hinside s hs
  · rw [List.pairwise_append]
    refine ⟨hbefore, .cons ?_ (List.pairwise_cons.mpr ⟨hafter, hrest⟩), ?_⟩
    · refine List.forall_mem_cons.mpr ⟨Position.le_refl _, fun s hs => ?_⟩
      exact Position.le_trans hpart (hafter s hs)
    · intro s hs
      refine List.forall_mem_cons.mpr ⟨?_, hbetween s hs⟩
      exact hbetween s hs part List.mem_cons_self

end

/-! ## The parts of a derivation -/

namespace Grammar

variable {text : List Char}

def ColumnsTree.columns : ColumnsTree → List ColumnTree
  | .last column _ => [column]
  | .more column _ rest => column :: rest.columns

theorem ColumnsTree.described_eq (c : ColumnsTree) :
    c.described = c.columns.map ColumnTree.described := by
  induction c with
  | last column comma => rfl
  | more column comma rest ih => rw [described, columns, List.map_cons, ih]

theorem ColumnTree.lexemes_ne_nil (c : ColumnTree) : c.lexemes ≠ [] := by
  cases c <;> exact List.cons_ne_nil _ _

/-- The tokens of the columns stand in the tokens of their list, with commas between them. -/
theorem ColumnsTree.sublist_lexemes (c : ColumnsTree) :
    (c.columns.map ColumnTree.lexemes).flatten.Sublist c.lexemes := by
  induction c with
  | last column comma => simp [columns, lexemes]
  | more column comma rest ih =>
    rw [columns, lexemes, List.map_cons, List.flatten_cons]
    exact (List.Sublist.refl _).append (ih.cons _)

theorem ColumnsTree.sublist_of_mem {c : ColumnsTree} {column : ColumnTree}
    (h : column ∈ c.columns) : column.lexemes.Sublist c.lexemes :=
  (List.sublist_flatten_of_mem (List.mem_map_of_mem h)).trans c.sublist_lexemes

/-- The entities stand among the tokens of their list, in order. -/
theorem usingNames_sublist (u : Option UsingTree) :
    ((usingNames u).map ident).Sublist (usingLexemes u) := by
  have hentities (es : List EntityTree) :
      ((es.map (·.name)).map ident).Sublist (es.flatMap EntityTree.lexemes) := by
    induction es with
    | nil => exact .refl _
    | cons e es ih =>
      rw [List.map_cons, List.map_cons, List.flatMap_cons, EntityTree.lexemes]
      exact .cons_cons _ (ih.trans (List.sublist_append_right _ _))
  cases u with
  | none => exact .refl _
  | some u => exact .cons _ (hentities u.entities)

theorem flatten_filter (f : Option FilterTree) :
    (f.map FilterTree.lexemes).toList.flatten = filterLexemes f := by
  cases f with
  | none => rfl
  | some f => exact List.append_nil _

/-- One part for each token. -/
def single (lexemes : List Lexeme) : List (List Lexeme) := lexemes.map ([·])

theorem flatten_single (lexemes : List Lexeme) : (single lexemes).flatten = lexemes := by
  induction lexemes with
  | nil => rfl
  | cons l rest ih => exact congrArg (l :: ·) ih

theorem ne_nil_of_mem_single {lexemes p : List Lexeme} (h : p ∈ single lexemes) : p ≠ [] := by
  obtain ⟨l, -, rfl⟩ := List.mem_map.mp h
  exact List.cons_ne_nil _ _

/-- The tokens of an event are its selector and its name, or its name alone; an omitted selector
stands empty where the name starts. -/
theorem EventTree.divided (e : EventTree) {whole : Span} (before : List Span) {after : List Span}
    (hforward : ∀ l ∈ e.lexemes, l.place.start ≤ l.place.stop)
    (h : whole.Divided
      (before ++ (single e.lexemes).map (fun p => span text (extent p)) ++ after)) :
    whole.Divided
      (before ++ span text e.selector.place :: span text e.event.place :: after) := by
  rw [List.append_assoc] at h
  cases e with
  | first word event => exact h
  | last word event => exact h
  | omitted event =>
    have h : whole.Divided (before ++ span text event.place :: after) := h
    exact h.insert (position_mono text (hforward (ident event) List.mem_cons_self))

/-- The names of a column lie in its span, side by side. -/
theorem ColumnTree.nested {c : ColumnTree} (h : Ordered c.lexemes) :
    (c.described.map (span text)).Nested := by
  cases c with
  | reference source word label =>
    refine divided_of_sublist text h (single [ident source, ident label]) ?_
      fun p => ne_nil_of_mem_single
    rw [flatten_single]
    exact .cons_cons _ (.cons _ (.refl _))
  | aggregation function lparen argument rparen word label =>
    refine divided_of_sublist text h (single [ident function, ident argument, ident label]) ?_
      fun p => ne_nil_of_mem_single
    rw [flatten_single]
    exact .cons_cons _ (.cons _ (.cons_cons _ (.cons _ (.cons _ (.refl _)))))

theorem ColumnsTree.places (c : ColumnsTree) :
    (c.described.map (·.map (span text))).map (·.place) =
      (c.columns.map ColumnTree.lexemes).map fun p => span text (extent p) := by
  rw [described_eq, List.map_map, List.map_map, List.map_map]
  refine List.map_congr_left fun c _ => ?_
  cases c <;> rfl

theorem ColumnsTree.nested {c : ColumnsTree} (h : Ordered c.lexemes) :
    ∀ x ∈ c.described.map (·.map (span text)), x.Nested := by
  rw [described_eq, List.map_map, List.forall_mem_map]
  exact fun column hcolumn => column.nested (h.sublist (sublist_of_mem hcolumn))

/-- Column, sign and literal of a filter lie in its span, side by side. -/
theorem FilterTree.nested {f : FilterTree} (h : Ordered f.lexemes) :
    (f.described.map (span text)).Nested := by
  have hliteral : f.literal.described.place = f.literal.lexeme.place := by
    cases f.literal <;> rfl
  rw [Filter.Nested, Filter.map, described]
  simp only [Located.map, hliteral]
  refine divided_of_sublist text h (single [ident f.column,
    ⟨.comparison f.comparison.value, f.comparison.place⟩, f.literal.lexeme]) ?_
    fun p => ne_nil_of_mem_single
  rw [flatten_single]
  exact .cons _ (.cons _ (.cons_cons _ (.cons_cons _ (.cons_cons _ (.cons _ (.refl _))))))

theorem SelectTree.nested {s : SelectTree} (h : Ordered s.lexemes) :
    (s.described.map (span text)).Nested := by
  have hlexemes := s.lexemes_append []
  rw [List.append_nil] at hlexemes
  have hevent : s.event.lexemes.Sublist s.lexemes := by
    rw [hlexemes]
    exact .cons _ (List.sublist_append_left _ _)
  have hcolumns : s.columns.lexemes.Sublist s.lexemes := by
    rw [hlexemes]
    exact .cons _ ((List.sublist_append_left _ _).cons _ |>.trans (List.sublist_append_right _ _))
  refine ⟨?_, s.columns.nested (h.sublist hcolumns)⟩
  have hparts : (single s.event.lexemes ++ s.columns.columns.map ColumnTree.lexemes).flatten.Sublist
      s.lexemes := by
    rw [List.flatten_append, flatten_single, hlexemes]
    refine .cons _ ((List.Sublist.refl _).append (.cons _ ?_))
    exact s.columns.sublist_lexemes.trans (List.sublist_append_left _ _)
  have hdivided := divided_of_sublist text h _ hparts ?_
  · rw [List.map_append] at hdivided
    have hforward : ∀ l ∈ s.event.lexemes, l.place.start ≤ l.place.stop :=
      fun l hl => h.forward l (hevent.subset hl)
    have hselect := s.event.divided [] hforward hdivided
    rw [← s.columns.places] at hselect
    exact hselect
  · intro p hp
    rcases List.mem_append.mp hp with hp | hp
    · exact ne_nil_of_mem_single hp
    · obtain ⟨c, -, rfl⟩ := List.mem_map.mp hp
      exact c.lexemes_ne_nil

/-- The parts of a join between its parentheses: entities, columns and the filter. -/
def JoinTree.bodyParts (j : JoinTree) : List (List Lexeme) :=
  single ((usingNames j.entities).map ident) ++ j.columns.columns.map ColumnTree.lexemes ++
    (j.filter.map FilterTree.lexemes).toList

theorem JoinTree.bodyParts_ne_nil (j : JoinTree) : ∀ p ∈ j.bodyParts, p ≠ [] := by
  intro p hp
  rcases List.mem_append.mp hp with hp | hp
  · rcases List.mem_append.mp hp with hp | hp
    · exact ne_nil_of_mem_single hp
    · obtain ⟨c, -, rfl⟩ := List.mem_map.mp hp
      exact c.lexemes_ne_nil
  · obtain ⟨f, -, rfl⟩ := Option.map_eq_some_iff.mp (Option.mem_toList.mp hp)
    exact List.cons_ne_nil _ _

/-- The parts in the brackets of a join stand in its tokens one behind the other. -/
theorem JoinTree.bodyParts_sublist (j : JoinTree) : j.bodyParts.flatten.Sublist
    (usingLexemes j.entities ++ j.columns.lexemes ++ filterLexemes j.filter) := by
  rw [bodyParts, List.flatten_append, List.flatten_append, flatten_single, flatten_filter]
  exact ((usingNames_sublist _).append (ColumnsTree.sublist_lexemes _)).append (.refl _)

theorem JoinTree.bodyParts_places (j : JoinTree) :
    j.bodyParts.map (fun p => span text (extent p)) =
      (j.described.map (span text)).entities.map (·.place) ++
        (j.described.map (span text)).columns.map (·.place) ++
        ((j.described.map (span text)).filter.map (·.place)).toList := by
  rw [bodyParts, List.map_append, List.map_append]
  refine congr (congrArg _ (congr (congrArg _ ?_) j.columns.places.symm)) ?_
  · change _ = List.map _ (List.map _ (usingNames j.entities))
    rw [single, List.map_map, List.map_map, List.map_map]
    rfl
  · obtain ⟨word, qualifier, event, lparen, entities, columns, filter, rparen⟩ := j
    cases filter <;> rfl

/-- The tokens of the parts of a join, without its first word and its brackets, stand in the tokens
of the join in this order. -/
theorem JoinTree.parts_sublist (j : JoinTree) : (qualifierLexeme j.qualifier :: (j.event.lexemes ++
    (usingLexemes j.entities ++ j.columns.lexemes ++ filterLexemes j.filter))).Sublist
      j.lexemes := by
  have hlexemes := j.lexemes_append []
  rw [List.append_nil] at hlexemes
  rw [hlexemes]
  refine .cons _ (.cons_cons _ ((List.Sublist.refl _).append (.cons _ ?_)))
  rw [← List.append_assoc, ← List.append_assoc]
  exact List.sublist_append_left _ _

/-- The head of a join and the parts in its brackets divide its span. -/
theorem JoinTree.nested {j : JoinTree} (h : Ordered j.lexemes) :
    (j.described.map (span text)).Nested := by
  have hbody := (List.sublist_append_right j.event.lexemes _).trans
    ((List.sublist_cons_self _ _).trans j.parts_sublist)
  have hcolumns : j.columns.lexemes.Sublist j.lexemes :=
    ((List.sublist_append_right _ _).trans (List.sublist_append_left _ _)).trans hbody
  have hfilter : (filterLexemes j.filter).Sublist j.lexemes :=
    (List.sublist_append_right _ _).trans hbody
  refine ⟨?_, j.columns.nested (h.sublist hcolumns), ?_⟩
  · have hparts : (single [qualifierLexeme j.qualifier] ++ single j.event.lexemes ++
        j.bodyParts).flatten.Sublist j.lexemes := by
      rw [List.flatten_append, List.flatten_append, flatten_single, flatten_single,
        List.append_assoc]
      refine .trans (.cons_cons _ ?_) j.parts_sublist
      exact (List.Sublist.refl j.event.lexemes).append j.bodyParts_sublist
    have hdivided := divided_of_sublist text h _ hparts ?_
    · have hqualifier : extent [qualifierLexeme j.qualifier] = j.qualifier.place := by
        unfold qualifierLexeme
        split <;> rfl
      rw [List.map_append, List.map_append, j.bodyParts_places] at hdivided
      have hevent : j.event.lexemes ⊆ j.lexemes := fun l hl =>
        j.parts_sublist.subset (List.mem_cons_of_mem _ (List.mem_append_left _ hl))
      have hjoin := j.event.divided _ (fun l hl => h.forward l (hevent hl)) hdivided
      simp only [single, List.map_cons, List.map_nil, hqualifier] at hjoin
      exact hjoin
    · intro p hp
      rcases List.mem_append.mp hp with hp | hp
      · rcases List.mem_append.mp hp with hp | hp
        · exact ne_nil_of_mem_single hp
        · exact ne_nil_of_mem_single hp
      · exact j.bodyParts_ne_nil p hp
  · intro f hf
    obtain ⟨x, hx, rfl⟩ := Option.map_eq_some_iff.mp hf
    obtain ⟨t, ht, rfl⟩ := Option.map_eq_some_iff.mp hx
    rw [ht] at hfilter
    exact t.nested (h.sublist hfilter)

/-- All parts of a query are nested, down to the names in its columns. -/
theorem QueryTree.nested {q : QueryTree} (h : Ordered q.lexemes) :
    (q.described.map (span text)).Nested := by
  have hclauses : (q.select.lexemes :: q.joins.map JoinTree.lexemes).flatten.Sublist q.lexemes := by
    rw [List.flatten_cons, ← List.flatMap_def]
    exact .refl _
  refine ⟨?_, ?_, ?_⟩
  · have hdivided := divided_of_sublist text h _ hclauses ?_
    · have hjoins : (q.described.map (span text)).joins.map (·.place) =
          (q.joins.map JoinTree.lexemes).map fun p => span text (extent p) := by
        change List.map _ (List.map _ (List.map _ q.joins)) = _
        rw [List.map_map, List.map_map, List.map_map]
        rfl
      rw [List.map_cons, ← hjoins] at hdivided
      exact hdivided
    · refine List.forall_mem_cons.mpr ⟨List.cons_ne_nil _ _, ?_⟩
      exact List.forall_mem_map.mpr fun j _ => List.cons_ne_nil _ _
  · exact q.select.nested (h.sublist (List.sublist_append_left _ _))
  · intro j hj
    obtain ⟨x, hx, rfl⟩ := List.mem_map.mp hj
    obtain ⟨t, ht, rfl⟩ := List.mem_map.mp hx
    have hsub : t.lexemes.Sublist (q.joins.flatMap JoinTree.lexemes) := by
      rw [List.flatMap_def]
      exact List.sublist_flatten_of_mem (List.mem_map_of_mem ht)
    exact t.nested (h.sublist (hsub.trans (List.sublist_append_right _ _)))

end Grammar

end EventQuery
