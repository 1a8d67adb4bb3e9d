import EventQuery.Query.Parser

/-! The grammar of queries, by its derivations: for every production a tree, with the tokens that it
derives and the part of a query that it stands for. Commas behind entities and behind the last
column may be there or not, so a derivation says more than the query does; still, no two derive the
same tokens. -/

namespace EventQuery.Grammar

open EventQuery.Parser (Name)

/-! ## Derivations -/

/-- The event of a clause, with a selector or without. -/
inductive EventTree where
  | first (word : ByteRange) (event : Name)
  | last (word : ByteRange) (event : Name)
  | omitted (event : Name)
deriving DecidableEq

/-- `source as label` or `function ( argument ) as label` -/
inductive ColumnTree where
  | reference (source : Name) (word : ByteRange) (label : Name)
  | aggregation (function : Name) (lparen : ByteRange) (argument : Name)
      (rparen word : ByteRange) (label : Name)
deriving DecidableEq

/-- Columns with commas between them, and perhaps one more behind the last. -/
inductive ColumnsTree where
  | last (column : ColumnTree) (comma : Option ByteRange)
  | more (column : ColumnTree) (comma : ByteRange) (rest : ColumnsTree)
deriving DecidableEq

/-- A name with a comma behind it or not. -/
structure EntityTree where
  name : Name
  comma : Option ByteRange
deriving DecidableEq

/-- `using` and one or more names. -/
structure UsingTree where
  word : ByteRange
  first : EntityTree
  rest : List EntityTree
deriving DecidableEq

inductive LiteralTree where
  | quoted (contents : String) (place : ByteRange)
  | number (numeral : String) (place : ByteRange)
deriving DecidableEq

/-- `filter ( column comparison literal )` -/
structure FilterTree where
  word : ByteRange
  lparen : ByteRange
  column : Name
  comparison : Located ByteRange Comparison
  literal : LiteralTree
  rparen : ByteRange
deriving DecidableEq

/-- `select event ( columns )` -/
structure SelectTree where
  word : ByteRange
  event : EventTree
  lparen : ByteRange
  columns : ColumnsTree
  rparen : ByteRange
deriving DecidableEq

/-- `join qualifier event ( entities columns filter )`, the entities and the filter only if they are
there. -/
structure JoinTree where
  word : ByteRange
  qualifier : Located ByteRange Qualifier
  event : EventTree
  lparen : ByteRange
  entities : Option UsingTree
  columns : ColumnsTree
  filter : Option FilterTree
  rparen : ByteRange
deriving DecidableEq

structure QueryTree where
  select : SelectTree
  joins : List JoinTree
deriving DecidableEq

/-! ## The tokens of a derivation -/

def ident (n : Name) : Lexeme := ⟨.ident n.value, n.place⟩

/-- A comma, if there is one. -/
def commaLexemes (comma : Option ByteRange) : List Lexeme := (comma.map (⟨.comma, ·⟩)).toList

def qualifierLexeme (q : Located ByteRange Qualifier) : Lexeme :=
  match q.value with
  | .before => ⟨.keyword .before, q.place⟩
  | .after => ⟨.keyword .after, q.place⟩

def EventTree.lexemes : EventTree → List Lexeme
  | .first word event => [⟨.keyword .first, word⟩, ident event]
  | .last word event => [⟨.keyword .last, word⟩, ident event]
  | .omitted event => [ident event]

def ColumnTree.lexemes : ColumnTree → List Lexeme
  | .reference source word label => [ident source, ⟨.keyword .asName, word⟩, ident label]
  | .aggregation function lparen argument rparen word label =>
    [ident function, ⟨.lparen, lparen⟩, ident argument, ⟨.rparen, rparen⟩,
      ⟨.keyword .asName, word⟩, ident label]

def ColumnsTree.lexemes : ColumnsTree → List Lexeme
  | .last column comma => column.lexemes ++ commaLexemes comma
  | .more column comma rest => column.lexemes ++ ⟨.comma, comma⟩ :: rest.lexemes

def EntityTree.lexemes (e : EntityTree) : List Lexeme := ident e.name :: commaLexemes e.comma

def UsingTree.entities (u : UsingTree) : List EntityTree := u.first :: u.rest

def UsingTree.lexemes (u : UsingTree) : List Lexeme :=
  ⟨.keyword .usingList, u.word⟩ :: u.entities.flatMap EntityTree.lexemes

def LiteralTree.lexeme : LiteralTree → Lexeme
  | .quoted contents place => ⟨.quoted contents, place⟩
  | .number numeral place => ⟨.number numeral, place⟩

def FilterTree.lexemes (f : FilterTree) : List Lexeme :=
  [⟨.keyword .filter, f.word⟩, ⟨.lparen, f.lparen⟩, ident f.column,
    ⟨.comparison f.comparison.value, f.comparison.place⟩, f.literal.lexeme, ⟨.rparen, f.rparen⟩]

def SelectTree.lexemes (s : SelectTree) : List Lexeme :=
  ⟨.keyword .select, s.word⟩ :: s.event.lexemes ++ ⟨.lparen, s.lparen⟩ :: s.columns.lexemes
    ++ [⟨.rparen, s.rparen⟩]

def usingLexemes (u : Option UsingTree) : List Lexeme := (u.map UsingTree.lexemes).getD []

def filterLexemes (f : Option FilterTree) : List Lexeme := (f.map FilterTree.lexemes).getD []

def JoinTree.lexemes (j : JoinTree) : List Lexeme :=
  ⟨.keyword .join, j.word⟩ :: qualifierLexeme j.qualifier :: j.event.lexemes
    ++ ⟨.lparen, j.lparen⟩ :: usingLexemes j.entities ++ j.columns.lexemes
    ++ filterLexemes j.filter ++ [⟨.rparen, j.rparen⟩]

theorem SelectTree.lexemes_append (s : SelectTree) (rest : List Lexeme) :
    s.lexemes ++ rest = ⟨.keyword .select, s.word⟩ :: (s.event.lexemes ++
      ⟨.lparen, s.lparen⟩ :: (s.columns.lexemes ++ ⟨.rparen, s.rparen⟩ :: rest)) := by
  simp [lexemes]

theorem JoinTree.lexemes_append (j : JoinTree) (rest : List Lexeme) :
    j.lexemes ++ rest = ⟨.keyword .join, j.word⟩ :: qualifierLexeme j.qualifier ::
      (j.event.lexemes ++ ⟨.lparen, j.lparen⟩ :: (usingLexemes j.entities ++
        (j.columns.lexemes ++ (filterLexemes j.filter ++ ⟨.rparen, j.rparen⟩ :: rest)))) := by
  simp [lexemes]

def QueryTree.lexemes (q : QueryTree) : List Lexeme :=
  q.select.lexemes ++ q.joins.flatMap JoinTree.lexemes

/-- No name of the list is directly followed by a parenthesis or `as`, which would make it a
column. -/
def UsingTree.Bounded (u : UsingTree) (behind : List Lexeme) : Prop :=
  ∀ before e after, u.entities = before ++ e :: after →
    Parser.beginsColumn (commaLexemes e.comma ++ after.flatMap EntityTree.lexemes ++ behind) = false

/-- The tokens follow the grammar by this derivation. -/
structure QueryTree.Derives (t : QueryTree) (lexemes : List Lexeme) : Prop where
  lexemes_eq : t.lexemes = lexemes
  bounded : ∀ j ∈ t.joins, ∀ u ∈ j.entities, u.Bounded j.columns.lexemes

/-! ## What a derivation stands for -/

/-- From the start of the first token to the end of the last. -/
def extent (lexemes : List Lexeme) : ByteRange where
  start := (lexemes.head?.map (·.place.start)).getD 0
  stop := (lexemes.getLast?.map (·.place.stop)).getD 0

theorem extent_concat {a b : Lexeme} {lexemes : List Lexeme} (h : lexemes.head? = some a) :
    extent (lexemes ++ [b]) = a.place.through b.place := by
  rw [extent, List.getLast?_concat, List.head?_append, h]
  rfl

theorem SelectTree.extent_lexemes (s : SelectTree) :
    extent s.lexemes = s.word.through s.rparen :=
  extent_concat (a := ⟨.keyword .select, s.word⟩) (b := ⟨.rparen, s.rparen⟩) rfl

theorem JoinTree.extent_lexemes (j : JoinTree) :
    extent j.lexemes = j.word.through j.rparen :=
  extent_concat (a := ⟨.keyword .join, j.word⟩) (b := ⟨.rparen, j.rparen⟩) rfl

/-- A query ends where its last join does, or its select clause. -/
theorem QueryTree.extent_lexemes (q : QueryTree) :
    extent q.lexemes = (extent q.select.lexemes).through
      ((q.joins.getLast?.map fun j => extent j.lexemes).getD (extent q.select.lexemes)) := by
  obtain ⟨select, joins⟩ := q
  obtain rfl | ⟨init, j, rfl⟩ := List.eq_nil_or_concat joins
  · simp only [lexemes, List.flatMap_nil, List.append_nil]
    rfl
  · rw [List.concat_eq_append]
    have hend : (lexemes ⟨select, init ++ [j]⟩).getLast? = some ⟨.rparen, j.rparen⟩ := by
      rw [lexemes, List.flatMap_append, List.flatMap_singleton, JoinTree.lexemes,
        ← List.append_assoc, ← List.append_assoc, List.getLast?_concat]
    have hlast : extent j.lexemes = j.word.through j.rparen := j.extent_lexemes
    rw [extent, hend, List.getLast?_concat, Option.map_some, Option.map_some, Option.getD_some,
      Option.getD_some, hlast]
    rfl

def EventTree.selector : EventTree → Located ByteRange Selector
  | .first word _ => ⟨.first, word⟩
  | .last word _ => ⟨.last, word⟩
  | .omitted event => ⟨.omitted, event.place.atStart⟩

def EventTree.event : EventTree → Name
  | .first _ event => event
  | .last _ event => event
  | .omitted event => event

/-- A function whose name is not known is taken for a count. -/
def ColumnTree.described (c : ColumnTree) : Column ByteRange :=
  match c with
  | .reference source _ label => .reference source label (extent c.lexemes)
  | .aggregation function _ argument _ _ label =>
    .aggregation ⟨(Aggregate.ofName? function.value).getD .count, function.place⟩ argument label
      (extent c.lexemes)

def ColumnsTree.described : ColumnsTree → List (Column ByteRange)
  | .last column _ => [column.described]
  | .more column _ rest => column.described :: rest.described

def LiteralTree.described : LiteralTree → Located ByteRange Literal
  | .quoted contents place => ⟨.text contents, place⟩
  | .number numeral place => ⟨Parser.numberLiteral numeral, place⟩

def FilterTree.described (f : FilterTree) : Filter ByteRange :=
  ⟨f.column, f.comparison, f.literal.described, extent f.lexemes⟩

def SelectTree.described (s : SelectTree) : SelectClause ByteRange :=
  ⟨s.event.selector, s.event.event, s.columns.described, extent s.lexemes⟩

def usingNames (u : Option UsingTree) : List Name :=
  (u.map fun u => u.entities.map (·.name)).getD []

def JoinTree.described (j : JoinTree) : JoinClause ByteRange where
  qualifier := j.qualifier
  selector := j.event.selector
  event := j.event.event
  entities := usingNames j.entities
  columns := j.columns.described
  filter := j.filter.map FilterTree.described
  place := extent j.lexemes

def QueryTree.described (q : QueryTree) : Query ByteRange :=
  ⟨q.select.described, q.joins.map JoinTree.described, extent q.lexemes⟩

/-- The name is that of a function, in any case of the ASCII letters. -/
def IsKnown (function : String) : Prop :=
  ∃ f : Aggregate, f.text.toList = function.toList.map Char.toLower

/-- A function is found by its name in any case of letters. -/
theorem isSome_ofName?_iff {function : String} :
    (Aggregate.ofName? function).isSome ↔ IsKnown function := by
  have hall (f : Aggregate) : f ∈ Aggregate.all := by cases f <;> decide
  rw [Aggregate.ofName?, List.find?_isSome]
  constructor
  · rintro ⟨f, -, hf⟩
    exact ⟨f, of_decide_eq_true hf⟩
  · rintro ⟨f, hf⟩
    exact ⟨f, hall f, decide_eq_true hf⟩

theorem text_of_ofName? {function : String} {f : Aggregate}
    (h : Aggregate.ofName? function = some f) :
    function.toList.map Char.toLower = f.text.toList := by
  rw [Aggregate.ofName?] at h
  have htext := List.find?_some h
  exact (of_decide_eq_true htext).symm

instance (function : String) : Decidable (IsKnown function) :=
  decidable_of_iff _ isSome_ofName?_iff

def ColumnTree.functions : ColumnTree → List Name
  | .reference .. => []
  | .aggregation function .. => [function]

def ColumnsTree.functions : ColumnsTree → List Name
  | .last column _ => column.functions
  | .more column _ rest => column.functions ++ rest.functions

/-- The names of functions, in order. -/
def QueryTree.functions (q : QueryTree) : List Name :=
  q.select.columns.functions ++ q.joins.flatMap (·.columns.functions)

/-! ## A derivation is determined by its tokens

Columns and filters end by themselves. A list of columns ends in front of anything that is neither
a comma nor a name, a list of entities in front of a column. -/

@[simp] theorem ident_inj {m n : Name} : ident m = ident n ↔ m = n := by
  obtain ⟨m, p⟩ := m
  obtain ⟨n, p'⟩ := n
  simp [ident]

@[simp] theorem ident_eq_mk {n : Name} {t : Token} {p : ByteRange} :
    ident n = ⟨t, p⟩ ↔ .ident n.value = t ∧ n.place = p := by
  rw [ident, Located.mk.injEq]

@[simp] theorem mk_eq_ident {n : Name} {t : Token} {p : ByteRange} :
    ⟨t, p⟩ = ident n ↔ t = .ident n.value ∧ p = n.place := by
  rw [ident, Located.mk.injEq]

/-- What stands behind a list of columns: the end of the clause, or its filter. -/
def EndsColumns (rest : List Lexeme) : Prop :=
  ∀ l ∈ rest.head?, l.value = .rparen ∨ l.value = .keyword .filter

theorem EndsColumns.ne_comma {p : ByteRange} {rest : List Lexeme} :
    ¬EndsColumns (⟨.comma, p⟩ :: rest) := by
  simp [EndsColumns]

theorem EndsColumns.ne_ident {n : Name} {rest : List Lexeme} : ¬EndsColumns (ident n :: rest) := by
  simp [EndsColumns, ident]

theorem EventTree.append_inj {s t : EventTree} {x y : ByteRange} {rest rest' : List Lexeme}
    (h : s.lexemes ++ ⟨.lparen, x⟩ :: rest = t.lexemes ++ ⟨.lparen, y⟩ :: rest') :
    s = t ∧ x = y ∧ rest = rest' := by
  cases s <;> cases t <;> simp_all [EventTree.lexemes]

/-- A column is recovered whatever follows it. -/
theorem ColumnTree.append_inj {c d : ColumnTree} {rest rest' : List Lexeme}
    (h : c.lexemes ++ rest = d.lexemes ++ rest') : c = d ∧ rest = rest' := by
  cases c <;> cases d <;> simp_all [ColumnTree.lexemes]

/-- A comma that may be missing is recovered where none follows. -/
theorem commaLexemes_append_inj {x y : Option ByteRange} {rest rest' : List Lexeme}
    (hrest : ∀ p more, rest ≠ ⟨.comma, p⟩ :: more)
    (hrest' : ∀ p more, rest' ≠ ⟨.comma, p⟩ :: more)
    (h : commaLexemes x ++ rest = commaLexemes y ++ rest') : x = y ∧ rest = rest' := by
  cases x with
  | none =>
    cases y with
    | none => exact ⟨rfl, h⟩
    | some p => exact absurd h (hrest p rest')
  | some p =>
    cases y with
    | none => exact absurd h.symm (hrest' p rest)
    | some q =>
      obtain ⟨hp, hrest⟩ := List.cons.inj h
      exact ⟨by rw [(Located.mk.inj hp).2], hrest⟩

/-- A list of columns starts with a name, what makes it a column, and another name. -/
theorem ColumnsTree.exists_lexemes_eq (c : ColumnsTree) : ∃ n l m behind,
    c.lexemes = ident n :: l :: ident m :: behind ∧ Parser.beginsColumn [l] = true := by
  have hcolumn (c : ColumnTree) : ∃ n l m behind,
      c.lexemes = ident n :: l :: ident m :: behind ∧ Parser.beginsColumn [l] = true := by
    cases c with
    | reference source word label => exact ⟨source, _, label, _, rfl, rfl⟩
    | aggregation function lparen argument rparen word label =>
      exact ⟨function, _, argument, _, rfl, rfl⟩
  cases c with
  | last column comma =>
    obtain ⟨n, l, m, behind, h, hl⟩ := hcolumn column
    exact ⟨n, l, m, _, by rw [lexemes, h]; rfl, hl⟩
  | more column comma rest =>
    obtain ⟨n, l, m, behind, h, hl⟩ := hcolumn column
    exact ⟨n, l, m, _, by rw [lexemes, h]; rfl, hl⟩

/-- Columns are recovered where no column and no comma can follow. -/
theorem ColumnsTree.append_inj {c d : ColumnsTree} {rest rest' : List Lexeme}
    (hrest : EndsColumns rest) (hrest' : EndsColumns rest')
    (h : c.lexemes ++ rest = d.lexemes ++ rest') : c = d ∧ rest = rest' := by
  -- A single column is no start of a longer list: what would come behind it does not end a list.
  have hshort {c d : ColumnTree} {x : Option ByteRange} {y : ByteRange} {ds : ColumnsTree}
      {rest rest' : List Lexeme} (hrest : EndsColumns rest)
      (h : (last c x).lexemes ++ rest = (more d y ds).lexemes ++ rest') : False := by
    obtain ⟨n, l, m, behind, hds, -⟩ := ds.exists_lexemes_eq
    rw [lexemes, lexemes, List.append_assoc, List.append_assoc] at h
    obtain ⟨-, h⟩ := ColumnTree.append_inj h
    cases x with
    | none =>
      rw [show rest = _ from h] at hrest
      exact EndsColumns.ne_comma hrest
    | some p =>
      have hbehind : rest = ds.lexemes ++ rest' := (List.cons.inj h).2
      rw [hbehind, hds] at hrest
      exact EndsColumns.ne_ident hrest
  induction c generalizing d with
  | last c x =>
    cases d with
    | last d y =>
      rw [lexemes, lexemes, List.append_assoc, List.append_assoc] at h
      obtain ⟨rfl, hcomma⟩ := ColumnTree.append_inj h
      have hne : ∀ {us : List Lexeme}, EndsColumns us → ∀ p more, us ≠ ⟨.comma, p⟩ :: more := by
        rintro us hus p more rfl
        exact EndsColumns.ne_comma hus
      obtain ⟨rfl, hrest⟩ := commaLexemes_append_inj (hne hrest) (hne hrest') hcomma
      exact ⟨rfl, hrest⟩
    | more d y ds => exact (hshort hrest h).elim
  | more c x cs ih =>
    cases d with
    | last d y => exact (hshort hrest' h.symm).elim
    | more d y ds =>
      rw [lexemes, lexemes, List.append_assoc, List.append_assoc] at h
      obtain ⟨rfl, hmore⟩ := ColumnTree.append_inj h
      obtain ⟨hx, hmore⟩ := List.cons.inj hmore
      obtain ⟨rfl, hrest⟩ := ih hmore
      exact ⟨by rw [(Located.mk.inj hx).2], hrest⟩

theorem beginsColumn_cons (l : Lexeme) (rest : List Lexeme) :
    Parser.beginsColumn (l :: rest) = Parser.beginsColumn [l] := by
  obtain ⟨t, p⟩ := l
  unfold Parser.beginsColumn
  cases t with
  | keyword k => cases k <;> rfl
  | _ => rfl

/-- A name in front of more names or of columns is an entity. -/
theorem beginsColumn_entities (comma : Option ByteRange) (es : List EntityTree) (c : ColumnsTree)
    (rest : List Lexeme) : Parser.beginsColumn
      (commaLexemes comma ++ (es.flatMap EntityTree.lexemes ++ (c.lexemes ++ rest))) = false := by
  cases comma with
  | some p => rfl
  | none =>
    cases es with
    | cons e es => rfl
    | nil =>
      obtain ⟨n, l, m, behind, hc, -⟩ := c.exists_lexemes_eq
      simp only [commaLexemes, List.flatMap_nil, hc]
      rfl

/-- Entities and columns start with a name. -/
theorem entities_append_ne_comma (es : List EntityTree) (c : ColumnsTree) (rest : List Lexeme) :
    ∀ p more, es.flatMap EntityTree.lexemes ++ (c.lexemes ++ rest) ≠ ⟨.comma, p⟩ :: more := by
  intro p more
  cases es with
  | nil =>
    obtain ⟨n, l, m, behind, hc, -⟩ := c.exists_lexemes_eq
    simp [hc]
  | cons e es => simp [EntityTree.lexemes]

/-- Where the entities end is told by the first column, as only a name that begins a column has a
bracket or `as` behind it. -/
theorem entities_append_inj {es fs : List EntityTree} {c d : ColumnsTree}
    {rest rest' : List Lexeme} (hrest : EndsColumns rest) (hrest' : EndsColumns rest')
    (h : es.flatMap EntityTree.lexemes ++ (c.lexemes ++ rest) =
      fs.flatMap EntityTree.lexemes ++ (d.lexemes ++ rest')) : es = fs ∧ c = d ∧ rest = rest' := by
  -- The first name of the columns is no entity: what makes it a column stands behind it.
  have hempty {c d : ColumnsTree} {e : EntityTree} {es : List EntityTree}
      {rest rest' : List Lexeme} (h : c.lexemes ++ rest =
        (e :: es).flatMap EntityTree.lexemes ++ (d.lexemes ++ rest')) : False := by
    obtain ⟨n, l, m, behind, hc, hl⟩ := c.exists_lexemes_eq
    have hbegins := beginsColumn_entities e.comma es d rest'
    rw [hc, List.flatMap_cons, List.append_assoc, EntityTree.lexemes] at h
    have hbehind : l :: ident m :: behind ++ rest = commaLexemes e.comma ++ _ := (List.cons.inj h).2
    rw [← hbehind] at hbegins
    exact Bool.noConfusion (hl.symm.trans ((beginsColumn_cons l _).symm.trans hbegins))
  induction es generalizing fs with
  | nil =>
    cases fs with
    | nil =>
      obtain ⟨rfl, rfl⟩ := ColumnsTree.append_inj hrest hrest' h
      exact ⟨rfl, rfl, rfl⟩
    | cons f fs => exact (hempty h).elim
  | cons e es ih =>
    cases fs with
    | nil => exact (hempty h.symm).elim
    | cons f fs =>
      obtain ⟨n, comma⟩ := e
      obtain ⟨n', comma'⟩ := f
      simp only [List.flatMap_cons, EntityTree.lexemes, List.cons_append, List.append_assoc,
        List.cons.injEq, ident_inj] at h
      obtain ⟨rfl, hcomma⟩ := h
      obtain ⟨rfl, hmore⟩ := commaLexemes_append_inj (entities_append_ne_comma _ _ _)
        (entities_append_ne_comma _ _ _) hcomma
      obtain ⟨rfl, rfl, rfl⟩ := ih hmore
      exact ⟨rfl, rfl, rfl⟩

theorem LiteralTree.lexeme_inj {l m : LiteralTree} (h : l.lexeme = m.lexeme) : l = m := by
  cases l <;> cases m <;> simp_all [LiteralTree.lexeme]

/-- A filter or its absence is recovered from the word that leads it. -/
theorem filter_append_inj {f g : Option FilterTree} {x y : ByteRange} {rest rest' : List Lexeme}
    (h : filterLexemes f ++ ⟨.rparen, x⟩ :: rest = filterLexemes g ++ ⟨.rparen, y⟩ :: rest') :
    f = g ∧ x = y ∧ rest = rest' := by
  cases f with
  | none =>
    cases g with
    | none => simpa [filterLexemes] using h
    | some g => exact nomatch (List.cons.inj h).1
  | some f =>
    cases g with
    | none => exact nomatch (List.cons.inj h).1
    | some g =>
      obtain ⟨word, lparen, column, ⟨c, p⟩, literal, rparen⟩ := f
      obtain ⟨word', lparen', column', ⟨c', p'⟩, literal', rparen'⟩ := g
      simp only [filterLexemes, FilterTree.lexemes, Option.map_some, Option.getD_some,
        List.cons_append, List.nil_append, List.cons.injEq, Located.mk.injEq, ident_inj,
        Token.comparison.injEq, true_and] at h
      obtain ⟨rfl, rfl, rfl, ⟨rfl, rfl⟩, hl, rfl, rfl, rfl⟩ := h
      exact ⟨by rw [LiteralTree.lexeme_inj hl], rfl, rfl⟩

theorem endsColumns_filter (f : Option FilterTree) (x : ByteRange) (rest : List Lexeme) :
    EndsColumns (filterLexemes f ++ ⟨.rparen, x⟩ :: rest) := by
  cases f with
  | none => simp [EndsColumns, filterLexemes]
  | some f => simp [EndsColumns, filterLexemes, FilterTree.lexemes]

/-- A list of entities or its absence is recovered with the columns behind it, from the word that
leads it. -/
theorem using_append_inj {u v : Option UsingTree} {c d : ColumnsTree} {rest rest' : List Lexeme}
    (hrest : EndsColumns rest) (hrest' : EndsColumns rest')
    (h : usingLexemes u ++ (c.lexemes ++ rest) = usingLexemes v ++ (d.lexemes ++ rest')) :
    u = v ∧ c = d ∧ rest = rest' := by
  -- Columns start with a name, a list of entities does not.
  have hword {c d : ColumnsTree} {u : UsingTree} {rest rest' : List Lexeme}
      (h : c.lexemes ++ rest = u.lexemes ++ (d.lexemes ++ rest')) : False := by
    obtain ⟨n, l, m, behind, hc, -⟩ := c.exists_lexemes_eq
    rw [hc] at h
    exact nomatch (List.cons.inj h).1
  cases u with
  | none =>
    cases v with
    | none =>
      obtain ⟨rfl, rfl⟩ := ColumnsTree.append_inj hrest hrest' h
      exact ⟨rfl, rfl, rfl⟩
    | some v => exact (hword h).elim
  | some u =>
    cases v with
    | none => exact (hword h.symm).elim
    | some v =>
      obtain ⟨word, first, more⟩ := u
      obtain ⟨word', first', more'⟩ := v
      obtain ⟨hw, h⟩ := List.cons.inj h
      obtain ⟨hes, rfl, rfl⟩ := entities_append_inj hrest hrest' h
      cases hes
      cases hw
      exact ⟨rfl, rfl, rfl⟩

theorem qualifierLexeme_inj {q r : Located ByteRange Qualifier}
    (h : qualifierLexeme q = qualifierLexeme r) : q = r := by
  obtain ⟨_ | _, p⟩ := q <;> obtain ⟨_ | _, p'⟩ := r <;> simp_all [qualifierLexeme]

/-- A select clause ends at its bracket, whatever follows. -/
theorem SelectTree.append_inj {s t : SelectTree} {rest rest' : List Lexeme}
    (h : s.lexemes ++ rest = t.lexemes ++ rest') : s = t ∧ rest = rest' := by
  obtain ⟨word, event, lparen, columns, rparen⟩ := s
  obtain ⟨word', event', lparen', columns', rparen'⟩ := t
  simp only [lexemes_append, List.cons.injEq, Located.mk.injEq, true_and] at h
  obtain ⟨rfl, h⟩ := h
  obtain ⟨rfl, rfl, hcolumns⟩ := EventTree.append_inj h
  obtain ⟨rfl, hend⟩ := ColumnsTree.append_inj (endsColumns_filter none _ _)
    (endsColumns_filter none _ _) hcolumns
  obtain ⟨-, rfl, rfl⟩ := filter_append_inj (f := none) (g := none) hend
  exact ⟨rfl, rfl⟩

/-- A join ends at its bracket, whatever follows. -/
theorem JoinTree.append_inj {i j : JoinTree} {rest rest' : List Lexeme}
    (h : i.lexemes ++ rest = j.lexemes ++ rest') : i = j ∧ rest = rest' := by
  obtain ⟨word, qualifier, event, lparen, entities, columns, filter, rparen⟩ := i
  obtain ⟨word', qualifier', event', lparen', entities', columns', filter', rparen'⟩ := j
  simp only [lexemes_append, List.cons.injEq, Located.mk.injEq, true_and] at h
  obtain ⟨rfl, hq, h⟩ := h
  obtain rfl := qualifierLexeme_inj hq
  obtain ⟨rfl, rfl, hbody⟩ := EventTree.append_inj h
  obtain ⟨rfl, rfl, hend⟩ := using_append_inj (endsColumns_filter _ _ _)
    (endsColumns_filter _ _ _) hbody
  obtain ⟨rfl, rfl, rfl⟩ := filter_append_inj hend
  exact ⟨rfl, rfl⟩

theorem joins_inj {is js : List JoinTree}
    (h : is.flatMap JoinTree.lexemes = js.flatMap JoinTree.lexemes) : is = js := by
  induction is generalizing js with
  | nil =>
    cases js with
    | nil => rfl
    | cons j js => cases h
  | cons i is ih =>
    cases js with
    | nil => cases h
    | cons j js =>
      obtain ⟨rfl, hmore⟩ := JoinTree.append_inj h
      rw [ih hmore]

/-- No two derivations have the same tokens. -/
theorem QueryTree.lexemes_inj {s t : QueryTree} (h : s.lexemes = t.lexemes) : s = t := by
  obtain ⟨select, joins⟩ := s
  obtain ⟨select', joins'⟩ := t
  obtain ⟨hselect, hjoins⟩ := SelectTree.append_inj h
  cases hselect
  cases joins_inj hjoins
  rfl

/-- Behind a name of a list there is never what makes it a column. -/
theorem UsingTree.bounded (u : UsingTree) (c : ColumnsTree) : u.Bounded c.lexemes := by
  intro before e after _
  simpa using beginsColumn_entities e.comma after c []

/-- The bound on lists of entities is met by every derivation, so the tokens alone decide. -/
theorem QueryTree.derives_iff {t : QueryTree} {lexemes : List Lexeme} :
    t.Derives lexemes ↔ t.lexemes = lexemes :=
  ⟨fun h => h.lexemes_eq, fun h => ⟨h, fun j _ u _ => u.bounded j.columns⟩⟩

end EventQuery.Grammar
