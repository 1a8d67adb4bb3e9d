import EventQuery.Proofs.Editor.Brackets
import EventQuery.Proofs.Query.Spans

/-! The contexts at the names of a query. The scan for a context knows nothing of the grammar, but
at the names of a text that is a query it finds out what the name stands for
(`contexts_of_parse`): what stands in the brackets of a clause closes all brackets that it opens,
and only a list of entities looks like one. -/

namespace EventQuery.Grammar

open Editor EventQuery.Parser

/-! ## Clauses of a derivation -/

/-- Brackets inside are closed inside. -/
def Balanced (ls : List Lexeme) : Prop := ∀ d, depthAfter d ls = some d

theorem Balanced.append {ls ms : List Lexeme} (hls : Balanced ls) (hms : Balanced ms) :
    Balanced (ls ++ ms) := by
  intro d
  rw [depthAfter_append, hls d]
  exact hms d

theorem isListed_comma (comma : Option ByteRange) : (commaLexemes comma).all isListed = true := by
  cases comma <;> rfl

theorem isListed_entities (es : List EntityTree) :
    (es.flatMap EntityTree.lexemes).all isListed = true := by
  rw [List.all_flatMap, List.all_eq_true]
  intro e _
  exact isListed_comma e.comma

theorem ColumnTree.balanced (c : ColumnTree) : Balanced c.lexemes := by
  cases c <;> exact fun _ => rfl

/-- Columns have brackets only around the arguments of functions, where they are in pairs. -/
theorem ColumnsTree.balanced (c : ColumnsTree) : Balanced c.lexemes := by
  induction c with
  | last column comma => exact column.balanced.append (depthAfter_listed (isListed_comma comma))
  | more column comma rest ih => exact column.balanced.append ih

theorem balanced_using (u : Option UsingTree) : Balanced (usingLexemes u) := by
  cases u with
  | none => exact fun _ => rfl
  | some u => exact fun d => depthAfter_listed (isListed_entities u.entities) d

theorem balanced_filter (f : Option FilterTree) : Balanced (filterLexemes f) := by
  cases f with
  | none => exact fun _ => rfl
  | some f =>
    intro d
    cases hl : f.literal <;>
      simp [filterLexemes, FilterTree.lexemes, hl, LiteralTree.lexeme] <;> rfl

/-- The token is no numeral. -/
def isNotNumber (l : Lexeme) : Bool :=
  match l.value with
  | .number _ => false
  | _ => true

theorem isNotNumber_of_isListed {ls : List Lexeme} (h : ls.all isListed = true) :
    ls.all isNotNumber = true := by
  rw [List.all_eq_true] at h ⊢
  intro l hl
  have hlisted := h l hl
  obtain ⟨t, x⟩ := l
  cases t with
  | number => cases hlisted
  | _ => rfl

theorem ColumnsTree.isNotNumber (c : ColumnsTree) : c.lexemes.all isNotNumber = true := by
  have hcolumn (c : ColumnTree) : c.lexemes.all Grammar.isNotNumber = true := by cases c <;> rfl
  induction c with
  | last column comma =>
    rw [lexemes, List.all_append, hcolumn, isNotNumber_of_isListed (isListed_comma comma)]
    rfl
  | more column comma rest ih =>
    rw [lexemes, List.all_append, hcolumn, List.all_cons, ih]
    rfl

theorem isNotNumber_using (u : Option UsingTree) : (usingLexemes u).all isNotNumber = true := by
  cases u with
  | none => rfl
  | some u =>
    change (u.entities.flatMap EntityTree.lexemes).all isNotNumber = true
    exact isNotNumber_of_isListed (isListed_entities u.entities)

/-- The only numeral of a clause stands in front of a bracket. -/
theorem not_endsInNumber {ls : List Lexeme} (hls : ls.all isNotNumber = true)
    (f : Option FilterTree) {before after : List Lexeme} {n : Name}
    (h : ls ++ filterLexemes f = before ++ ident n :: after) : ¬EndsInNumber before := by
  rintro ⟨m, p, hlast⟩
  obtain ⟨init, rfl⟩ := List.getLast?_eq_some_iff.mp hlast
  rw [List.append_assoc] at h
  -- The numeral and the name behind it are not among the tokens before the literal.
  have hplain {ms tail : List Lexeme} (hms : ms.all isNotNumber = true)
      (htail : tail = [] ∨ ∃ l x, tail = [l, ⟨.rparen, x⟩])
      (h : ms ++ tail = init ++ ⟨.number m, p⟩ :: ident n :: after) : False := by
    rcases List.append_eq_append_iff.mp h with ⟨as, -, has⟩ | ⟨bs, rfl, hbs⟩
    · rcases htail with rfl | ⟨l, x, rfl⟩
      · simp at has
      · rcases as with _ | ⟨a, _ | ⟨a', as⟩⟩ <;> simp at has
    · cases bs with
      | nil =>
        rcases htail with rfl | ⟨l, x, rfl⟩ <;> simp at hbs
      | cons b bs =>
        obtain ⟨rfl, -⟩ := List.cons.inj hbs
        exact absurd (List.all_eq_true.mp hms ⟨.number m, p⟩ (by simp)) (by simp [isNotNumber])
  cases f with
  | none => exact hplain hls (.inl rfl) h
  | some f =>
    have hsplit : ls ++ filterLexemes (some f) = (ls ++ [⟨.keyword .filter, f.word⟩,
        ⟨.lparen, f.lparen⟩, ident f.column, ⟨.comparison f.comparison.value, f.comparison.place⟩])
          ++ [f.literal.lexeme, ⟨.rparen, f.rparen⟩] := by
      simp [filterLexemes, FilterTree.lexemes]
    rw [hsplit] at h
    refine hplain ?_ (.inr ⟨_, _, rfl⟩) h
    rw [List.all_append, hls]
    rfl

/-- The base selection as a clause. -/
def SelectTree.clause (s : SelectTree) : ClauseTree where
  lead := []
  header := ⟨.select, s.word⟩
  event := s.event
  lparen := s.lparen
  inner := s.columns.lexemes
  rparen := s.rparen
  isHeader := by simp
  balanced := s.columns.balanced 0
  numbers before n after h :=
    not_endsInNumber s.columns.isNotNumber none ((List.append_nil _).trans h)

def qualifierKeyword : Qualifier → Keyword
  | .before => .before
  | .after => .after

def JoinTree.clause (j : JoinTree) : ClauseTree where
  lead := [⟨.join, j.word⟩]
  header := ⟨qualifierKeyword j.qualifier.value, j.qualifier.place⟩
  event := j.event
  lparen := j.lparen
  inner := usingLexemes j.entities ++ j.columns.lexemes ++ filterLexemes j.filter
  rparen := j.rparen
  isHeader := by cases j.qualifier.value <;> simp [qualifierKeyword]
  balanced := ((balanced_using j.entities).append j.columns.balanced).append
    (balanced_filter j.filter) 0
  numbers before n after h := by
    refine not_endsInNumber ?_ j.filter h
    rw [List.all_append, isNotNumber_using, j.columns.isNotNumber]
    rfl

/-- A select clause as the scan sees it has the same tokens. -/
theorem SelectTree.lexemes_clause (s : SelectTree) : s.clause.lexemes = s.lexemes := by
  simp [ClauseTree.lexemes, clause, ClauseTree.words, keywordLexeme, lexemes]

theorem JoinTree.lexemes_clause (j : JoinTree) : j.clause.lexemes = j.lexemes := by
  have hqualifier : qualifierLexeme j.qualifier =
      ⟨.keyword (qualifierKeyword j.qualifier.value), j.qualifier.place⟩ := by
    rw [qualifierLexeme]
    cases j.qualifier.value <;> rfl
  simp [ClauseTree.lexemes, clause, ClauseTree.words, keywordLexeme, lexemes, hqualifier]

def QueryTree.clauses (q : QueryTree) : List ClauseTree :=
  q.select.clause :: q.joins.map JoinTree.clause

/-- The clauses of a query, one behind the other, are the whole query. -/
theorem QueryTree.lexemes_clauses (q : QueryTree) :
    q.clauses.flatMap ClauseTree.lexemes = q.lexemes := by
  rw [clauses, List.flatMap_cons, SelectTree.lexemes_clause, List.flatMap_map, lexemes]
  simp only [JoinTree.lexemes_clause]

/-! ## Names of a clause -/

/-- All names of a column, that of a function among them. -/
def ColumnTree.names : ColumnTree → List Name
  | .reference source _ label => [source, label]
  | .aggregation function _ argument _ _ label => [function, argument, label]

def ColumnsTree.names : ColumnsTree → List Name
  | .last column _ => column.names
  | .more column _ rest => column.names ++ rest.names

/-- The name stands there, behind the start of a list of entities or not. -/
def NameIn (ls : List Lexeme) (n : Name) (listed : Bool) : Prop :=
  ∃ before after, ls = before ++ ident n :: after ∧ isEntityList before = listed

theorem ColumnTree.marked (c : ColumnTree) : Marked c.lexemes := by
  cases c with
  | reference source word label => exact ⟨⟨.keyword .asName, word⟩, by simp [lexemes], .inr rfl⟩
  | aggregation function lparen argument rparen word label =>
    exact ⟨⟨.lparen, lparen⟩, by simp [lexemes], .inl rfl⟩

theorem ColumnTree.exists_names (c : ColumnTree) : ∃ n ns after, c.names = n :: ns ∧
    c.lexemes = ident n :: after := by
  cases c with
  | reference source word label => exact ⟨source, _, _, rfl, rfl⟩
  | aggregation function lparen argument rparen word label => exact ⟨function, _, _, rfl, rfl⟩

/-- Behind the first name of a column there is always what makes it one. -/
theorem ColumnTree.split_names (c : ColumnTree) : ∀ n ∈ c.names.tail,
    ∃ before after, c.lexemes = before ++ ident n :: after ∧ Marked before := by
  cases c with
  | reference source word label =>
    refine List.forall_mem_singleton.mpr ⟨[ident source, ⟨.keyword .asName, word⟩], [], rfl, ?_⟩
    exact ⟨⟨.keyword .asName, word⟩, by simp, .inr rfl⟩
  | aggregation function lparen argument rparen word label =>
    refine List.forall_mem_cons.mpr ⟨⟨[ident function, ⟨.lparen, lparen⟩], _, rfl, ?_⟩,
      List.forall_mem_singleton.mpr ⟨[ident function, ⟨.lparen, lparen⟩, ident argument,
        ⟨.rparen, rparen⟩, ⟨.keyword .asName, word⟩], [], rfl, ?_⟩⟩
    · exact ⟨⟨.lparen, lparen⟩, by simp, .inl rfl⟩
    · exact ⟨⟨.lparen, lparen⟩, by simp, .inl rfl⟩

/-- A list of columns begins with the first of its names. -/
theorem ColumnsTree.exists_names (c : ColumnsTree) : ∃ n ns after, c.names = n :: ns ∧
    c.lexemes = ident n :: after := by
  cases c with
  | last column comma =>
    obtain ⟨n, ns, after, hnames, hlexemes⟩ := column.exists_names
    exact ⟨n, ns, _, hnames, by rw [lexemes, hlexemes]; rfl⟩
  | more column comma rest =>
    obtain ⟨n, ns, after, hnames, hlexemes⟩ := column.exists_names
    exact ⟨n, _, _, by rw [names, hnames]; rfl, by rw [lexemes, hlexemes]; rfl⟩

theorem ColumnsTree.ident_mem (c : ColumnsTree) : ∀ n ∈ c.names, ident n ∈ c.lexemes := by
  have hcolumn (c : ColumnTree) : ∀ n ∈ c.names, ident n ∈ c.lexemes := by
    cases c <;> simp [ColumnTree.names, ColumnTree.lexemes]
  induction c with
  | last column comma => exact fun n hn => List.mem_append_left _ (hcolumn column n hn)
  | more column comma rest ih =>
    refine List.forall_mem_append.mpr ⟨fun n hn => ?_, fun n hn => ?_⟩
    · exact List.mem_append_left _ (hcolumn column n hn)
    · exact List.mem_append_right _ (List.mem_cons_of_mem _ (ih n hn))

/-- Every name but the first has a bracket or `as` in front of it, of its own column or of an
earlier one. -/
theorem ColumnsTree.split_names (c : ColumnsTree) : ∀ n ∈ c.names.tail,
    ∃ before after, c.lexemes = before ++ ident n :: after ∧ Marked before := by
  intro n hn
  cases c with
  | last column comma =>
    obtain ⟨before, after, hlexemes, hmarked⟩ := column.split_names n hn
    exact ⟨before, after ++ commaLexemes comma, by rw [lexemes, hlexemes]; simp, hmarked⟩
  | more column comma rest =>
    obtain ⟨m, ns, -, hnames, -⟩ := column.exists_names
    rw [names, hnames, List.cons_append, List.tail_cons, List.mem_append] at hn
    rcases hn with hn | hn
    · obtain ⟨before, after, hlexemes, hmarked⟩ := column.split_names n (by rwa [hnames])
      exact ⟨before, after ++ ⟨.comma, comma⟩ :: rest.lexemes, by rw [lexemes, hlexemes]; simp,
        hmarked⟩
    · obtain ⟨before, after, hrest⟩ := List.append_of_mem (rest.ident_mem n hn)
      refine ⟨column.lexemes ++ ⟨.comma, comma⟩ :: before, after, ?_, column.marked.append_left _⟩
      rw [lexemes, hrest, List.append_assoc]
      rfl

theorem SelectTree.nameIn_columns (s : SelectTree) :
    ∀ n ∈ s.columns.names, NameIn s.clause.inner n false := by
  obtain ⟨m, ns, after, hnames, hlexemes⟩ := s.columns.exists_names
  intro n hn
  rw [hnames] at hn
  rcases List.mem_cons.mp hn with rfl | hn
  · exact ⟨[], after, hlexemes, rfl⟩
  · obtain ⟨before, after, hsplit, hmarked⟩ := s.columns.split_names n (by rwa [hnames])
    exact ⟨before, after, hsplit, isEntityList_of_marked hmarked⟩

namespace JoinTree

variable (j : JoinTree)

/-- The entities of a join stand behind the start of a list of entities. -/
theorem nameIn_entities : ∀ n ∈ usingNames j.entities, NameIn j.clause.inner n true := by
  intro n hn
  cases hu : j.entities with
  | none =>
    rw [hu] at hn
    cases hn
  | some u =>
    rw [hu] at hn
    obtain ⟨e, he, rfl⟩ := List.mem_map.mp hn
    have hmem : ident e.name ∈ u.entities.flatMap EntityTree.lexemes :=
      List.mem_flatMap.mpr ⟨e, he, List.mem_cons_self⟩
    obtain ⟨before, after, hsplit⟩ := List.append_of_mem hmem
    have hlisted := isListed_entities u.entities
    rw [hsplit, List.all_append, Bool.and_eq_true] at hlisted
    refine ⟨⟨.keyword .usingList, u.word⟩ :: before,
      after ++ (j.columns.lexemes ++ filterLexemes j.filter), ?_, hlisted.1⟩
    simp [clause, usingLexemes, hu, UsingTree.lexemes, hsplit]

/-- The first name of the columns still looks like one more entity, if there are entities in front
of it. -/
theorem nameIn_first : ∀ n ∈ j.columns.names.head?,
    NameIn j.clause.inner n !(usingNames j.entities).isEmpty := by
  obtain ⟨m, ns, after, hnames, hlexemes⟩ := j.columns.exists_names
  intro n hn
  rw [hnames] at hn
  cases hn
  refine ⟨usingLexemes j.entities, after ++ filterLexemes j.filter, ?_, ?_⟩
  · simp [clause, hlexemes]
  · cases j.entities with
    | none => rfl
    | some u => exact isListed_entities u.entities

/-- From the second name of the columns on, a bracket or `as` tells that the entities are over. -/
theorem nameIn_columns : ∀ n ∈ j.columns.names.tail, NameIn j.clause.inner n false := by
  intro n hn
  obtain ⟨before, after, hsplit, hmarked⟩ := j.columns.split_names n hn
  refine ⟨usingLexemes j.entities ++ before, after ++ filterLexemes j.filter, ?_,
    isEntityList_of_marked (hmarked.append_right _)⟩
  simp [clause, hsplit]

/-- The column of a filter stands behind the bracket of the filter. -/
theorem nameIn_filter : ∀ f ∈ j.filter, NameIn j.clause.inner f.column false := by
  intro f hf
  refine ⟨usingLexemes j.entities ++ j.columns.lexemes ++ [⟨.keyword .filter, f.word⟩,
    ⟨.lparen, f.lparen⟩], [⟨.comparison f.comparison.value, f.comparison.place⟩, f.literal.lexeme,
    ⟨.rparen, f.rparen⟩], ?_, isEntityList_of_marked (Marked.append_right ?_ _)⟩
  · rw [Option.mem_def] at hf
    simp [clause, hf, filterLexemes, FilterTree.lexemes]
  · exact ⟨⟨.lparen, f.lparen⟩, by simp, .inl rfl⟩

end JoinTree

end EventQuery.Grammar

namespace EventQuery

open Grammar Editor EventQuery.Parser

/-! ## The names of a query -/

/-- The places of the names of a column, that of a function among them. -/
def Column.namePlaces {ρ : Type} : Column ρ → List ρ
  | .reference source label _ => [source.place, label.place]
  | .aggregation function argument label _ => [function.place, argument.place, label.place]

theorem Column.namePlaces_map {ρ σ : Type} (f : ρ → σ) (c : Column ρ) :
    (c.map f).namePlaces = c.namePlaces.map f := by
  cases c <;> rfl

/-- The places of the names in a list of columns, from the grammar and from what was read. -/
theorem Grammar.ColumnsTree.namePlaces (c : ColumnsTree) :
    c.described.flatMap Column.namePlaces = c.names.map (·.place) := by
  have hcolumn (c : ColumnTree) : c.described.namePlaces = c.names.map (·.place) := by
    cases c <;> rfl
  induction c with
  | last column comma => rw [described, List.flatMap_singleton, hcolumn, names]
  | more column comma rest ih =>
    rw [described, List.flatMap_cons, hcolumn, ih, names, List.map_append]

theorem Grammar.ColumnsTree.namePlaces_map (c : ColumnsTree) (text : List Char) :
    (c.described.map (·.map (Source.span text))).flatMap Column.namePlaces =
      c.names.map fun n => Source.span text n.place := by
  rw [List.flatMap_map]
  simp only [Column.namePlaces_map]
  rw [← List.map_flatMap, c.namePlaces, List.map_map]
  rfl

/-- The contexts at the names of a base selection are those of the selection. -/
structure SelectClause.ContextsAgree (text : List Char) (s : SelectClause Span) : Prop where
  event : ContextOver text s.event.place (.eventName (s.selector.value ≠ .omitted))
  columns : ∀ p ∈ s.columns.flatMap Column.namePlaces,
    ContextOver text p (.clause (some s.event.value) false)

/-- The contexts at the names of a join are those of the join. The first name of its columns may
still be an entity, for all that can be seen in front of it. -/
structure JoinClause.ContextsAgree (text : List Char) (j : JoinClause Span) : Prop where
  event : ContextOver text j.event.place (.eventName (j.selector.value ≠ .omitted))
  entities : ∀ e ∈ j.entities, ContextOver text e.place (.clause (some j.event.value) true)
  first : ∀ p ∈ (j.columns.flatMap Column.namePlaces).head?,
    ContextOver text p (.clause (some j.event.value) !j.entities.isEmpty)
  columns : ∀ p ∈ (j.columns.flatMap Column.namePlaces).tail,
    ContextOver text p (.clause (some j.event.value) false)
  filter : ∀ f ∈ j.filter, ContextOver text f.column.place (.clause (some j.event.value) false)

section
variable {text : List Char} (ha : IsAscii text)
include ha

/-- A name of a clause is seen in the context of the clause at all its offsets, whatever clauses
there are around. -/
theorem Editor.seenOver_of_nameIn {done more : List ClauseTree} {c : ClauseTree} {n : Name}
    {listed : Bool}
    (hlex : Source.lex text = .ok ((done ++ c :: more).flatMap ClauseTree.lexemes))
    (h : NameIn c.inner n listed) : SeenOver text n.value (Source.span text n.place)
      (.clause (some c.event.event.value) listed) := by
  obtain ⟨before, after, hinner, rfl⟩ := h
  exact seenOver_inner ha hlex hinner

theorem Grammar.SelectTree.contextsAgree (s : SelectTree) (done more : List ClauseTree)
    (hlex : Source.lex text = .ok ((done ++ s.clause :: more).flatMap ClauseTree.lexemes)) :
    (s.described.map (Source.span text)).ContextsAgree text where
  event := (seenOver_event ha hlex).contextOver
  columns := by
    intro p hp
    rw [show (s.described.map (Source.span text)).columns.flatMap _ = _ from
      s.columns.namePlaces_map text] at hp
    obtain ⟨n, hn, rfl⟩ := List.mem_map.mp hp
    exact (seenOver_of_nameIn ha hlex (s.nameIn_columns n hn)).contextOver

/-- Each part of a join is a name of its clause, and so are its event and its words. -/
theorem Grammar.JoinTree.contextsAgree (j : JoinTree) (done more : List ClauseTree)
    (hlex : Source.lex text = .ok ((done ++ j.clause :: more).flatMap ClauseTree.lexemes)) :
    (j.described.map (Source.span text)).ContextsAgree text := by
  have hplaces : (j.described.map (Source.span text)).columns.flatMap Column.namePlaces =
      j.columns.names.map fun n => Source.span text n.place := j.columns.namePlaces_map text
  refine ⟨(seenOver_event ha hlex).contextOver, ?_, ?_, ?_, ?_⟩
  · intro e he
    obtain ⟨n, hn, rfl⟩ := List.mem_map.mp he
    exact (seenOver_of_nameIn ha hlex (j.nameIn_entities n hn)).contextOver
  · intro p hp
    rw [hplaces, List.head?_map] at hp
    obtain ⟨n, hn, rfl⟩ := Option.map_eq_some_iff.mp hp
    have hentities : (j.described.map (Source.span text)).entities.isEmpty =
        (usingNames j.entities).isEmpty := List.isEmpty_map
    rw [hentities]
    exact (seenOver_of_nameIn ha hlex (j.nameIn_first n hn)).contextOver
  · intro p hp
    rw [hplaces, ← List.map_tail] at hp
    obtain ⟨n, hn, rfl⟩ := List.mem_map.mp hp
    exact (seenOver_of_nameIn ha hlex (j.nameIn_columns n hn)).contextOver
  · intro f hf
    obtain ⟨g, hg, rfl⟩ := Option.map_eq_some_iff.mp hf
    obtain ⟨t, ht, rfl⟩ := Option.map_eq_some_iff.mp hg
    exact (seenOver_of_nameIn ha hlex (j.nameIn_filter t ht)).contextOver

end

/-- **The scan for contexts agrees with the grammar.** At all offsets of the names of a query, from
the start of a name to its end, the context is the right one: in front of the brackets of a clause
its event, with a selector or without; in the brackets the clause of that event, and there a list of
entities at the entities and at the first column behind them. -/
theorem contexts_of_parse {text : String} {q : Query Span} (h : Query.parse text = .ok q)
    (ha : IsAscii text.toList) : q.select.ContextsAgree text.toList ∧
      ∀ j ∈ q.joins, j.ContextsAgree text.toList := by
  obtain ⟨lexemes, hlex⟩ := Query.exists_lexemes_of_parse h
  obtain ⟨t, rfl, hknown⟩ := Query.exists_tree_of_parse hlex h
  obtain rfl := Except.ok.inj (h.symm.trans (Query.parse_eq_ok hlex rfl hknown))
  rw [← t.lexemes_clauses] at hlex
  refine ⟨t.select.contextsAgree ha [] _ hlex, fun j hj => ?_⟩
  obtain ⟨x, hx, rfl⟩ := List.mem_map.mp hj
  obtain ⟨u, hu, rfl⟩ := List.mem_map.mp hx
  obtain ⟨before, after, hjoins⟩ := List.append_of_mem hu
  refine u.contextsAgree ha (t.select.clause :: before.map JoinTree.clause)
    (after.map JoinTree.clause) ?_
  rw [hlex, QueryTree.clauses, hjoins, List.map_append]
  rfl

/-- Letters beyond ASCII and brackets only in a comment and in quotes. -/
def noisyText : String :=
  "Select a (b as c) -- é (\njoin after last d (using e, f max(g) as h filter(i = 'ü)'))"

def noisyQuery : Query Span where
  select := ⟨⟨.omitted, ⟨⟨0, 7⟩, ⟨0, 7⟩⟩⟩, ⟨"a", ⟨⟨0, 7⟩, ⟨0, 8⟩⟩⟩,
    [.reference ⟨"b", ⟨⟨0, 10⟩, ⟨0, 11⟩⟩⟩ ⟨"c", ⟨⟨0, 15⟩, ⟨0, 16⟩⟩⟩ ⟨⟨0, 10⟩, ⟨0, 16⟩⟩],
    ⟨⟨0, 0⟩, ⟨0, 17⟩⟩⟩
  joins := [⟨⟨.after, ⟨⟨1, 5⟩, ⟨1, 10⟩⟩⟩, ⟨.last, ⟨⟨1, 11⟩, ⟨1, 15⟩⟩⟩, ⟨"d", ⟨⟨1, 16⟩, ⟨1, 17⟩⟩⟩,
    [⟨"e", ⟨⟨1, 25⟩, ⟨1, 26⟩⟩⟩, ⟨"f", ⟨⟨1, 28⟩, ⟨1, 29⟩⟩⟩],
    [.aggregation ⟨.max, ⟨⟨1, 30⟩, ⟨1, 33⟩⟩⟩ ⟨"g", ⟨⟨1, 34⟩, ⟨1, 35⟩⟩⟩ ⟨"h", ⟨⟨1, 40⟩, ⟨1, 41⟩⟩⟩
      ⟨⟨1, 30⟩, ⟨1, 41⟩⟩],
    some ⟨⟨"i", ⟨⟨1, 49⟩, ⟨1, 50⟩⟩⟩, ⟨.eq, ⟨⟨1, 51⟩, ⟨1, 52⟩⟩⟩, ⟨.text "ü)", ⟨⟨1, 53⟩, ⟨1, 57⟩⟩⟩,
      ⟨⟨1, 42⟩, ⟨1, 58⟩⟩⟩, ⟨⟨1, 0⟩, ⟨1, 59⟩⟩⟩]
  place := ⟨⟨0, 0⟩, ⟨1, 59⟩⟩

/-- The brackets and letters in the comment and in quotes do not count. -/
theorem noisyText_contexts : Query.parse noisyText = .ok noisyQuery ∧ IsAscii noisyText.toList ∧
    noisyQuery.select.ContextsAgree noisyText.toList ∧
    ∀ j ∈ noisyQuery.joins, j.ContextsAgree noisyText.toList := by
  have hparse : Query.parse noisyText = .ok noisyQuery := by decide +kernel
  have hchars : noisyText.toList = _ := String.toList_ofList
  have hascii : IsAscii noisyText.toList := by
    rw [hchars]
    decide +kernel
  exact ⟨hparse, hascii, contexts_of_parse hparse hascii⟩

end EventQuery
