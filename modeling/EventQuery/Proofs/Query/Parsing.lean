import EventQuery.Proofs.Outcome
import EventQuery.Proofs.Query.Grammar

/-! Reading follows the grammar. Each reading function takes the tokens of a derivation off the
front and gives what the derivation stands for; and where such tokens stand at the front, with what
has to follow them, it takes them. -/

namespace EventQuery.Parser

open Grammar Outcome

theorem name_eq_ok_iff {rest : Rest} {x : Name × Rest} :
    name rest = .ok x ↔ rest = ident x.1 :: x.2 := by
  constructor
  · intro h
    unfold name at h
    split at h
    · cases h
      rfl
    · cases h
  · rintro rfl
    rfl

theorem token_eq_ok_iff {t : Token} {rest : Rest} {x : ByteRange × Rest} :
    token t rest = .ok x ↔ rest = ⟨t, x.1⟩ :: x.2 := by
  cases rest with
  | nil => simp [token]
  | cons l rest =>
    obtain ⟨t', p⟩ := l
    obtain ⟨q, rest'⟩ := x
    by_cases h : t' = t
    · simp [token, h]
    · simp [token, h]

theorem qualifier_eq_ok_iff {rest : Rest} {x : Located ByteRange Qualifier × Rest} :
    qualifier rest = .ok x ↔ rest = qualifierLexeme x.1 :: x.2 := by
  constructor
  · intro h
    unfold qualifier at h
    split at h
    · cases h; rfl
    · cases h; rfl
    · cases h
  · obtain ⟨⟨_ | _, p⟩, rest'⟩ := x <;> (rintro rfl; rfl)

theorem comparison_eq_ok_iff {rest : Rest} {x : Located ByteRange Comparison × Rest} :
    comparison rest = .ok x ↔ rest = ⟨.comparison x.1.value, x.1.place⟩ :: x.2 := by
  constructor
  · intro h
    unfold comparison at h
    split at h
    · cases h; rfl
    · cases h
  · rintro rfl
    rfl

theorem literal_eq_ok_iff {rest : Rest} {x : Located ByteRange Literal × Rest} :
    literal rest = .ok x ↔ ∃ l : LiteralTree, rest = l.lexeme :: x.2 ∧ x.1 = l.described := by
  constructor
  · intro h
    unfold literal at h
    split at h
    · cases h; exact ⟨.quoted _ _, rfl, rfl⟩
    · cases h; exact ⟨.number _ _, rfl, rfl⟩
    · cases h
  · obtain ⟨l, rest'⟩ := x
    rintro ⟨t, rfl, rfl⟩
    cases t <;> rfl

/-- What is read is a selector and an event behind it, or an event alone. -/
theorem selectedEvent_eq_ok_iff {rest : Rest} {x : (Located ByteRange Selector × Name) × Rest} :
    selectedEvent rest = .ok x ↔
      ∃ e : EventTree, rest = e.lexemes ++ x.2 ∧ x.1 = (e.selector, e.event) := by
  constructor
  · intro h
    unfold selectedEvent at h
    split at h
    · obtain ⟨⟨event, rest'⟩, hname, hx⟩ := bind_eq_ok_iff.mp h
      cases hx
      exact ⟨.first _ event, by rw [name_eq_ok_iff.mp hname]; rfl, rfl⟩
    · obtain ⟨⟨event, rest'⟩, hname, hx⟩ := bind_eq_ok_iff.mp h
      cases hx
      exact ⟨.last _ event, by rw [name_eq_ok_iff.mp hname]; rfl, rfl⟩
    · obtain ⟨⟨event, rest'⟩, hname, hx⟩ := bind_eq_ok_iff.mp h
      cases hx
      exact ⟨.omitted event, by rw [name_eq_ok_iff.mp hname]; rfl, rfl⟩
  · obtain ⟨⟨selector, event⟩, rest'⟩ := x
    rintro ⟨t, rfl, hx⟩
    cases hx
    cases t <;> rfl

/-! ## Columns -/

/-- The function of this name is not known. -/
def isUnknown (f : Name) : Bool := (Aggregate.ofName? f.value).isNone

/-- What is read of an aggregation does not depend on whether its function is known; an unknown one
is noted beside it. -/
theorem aggregation_eq (function : Name) (lparen : ByteRange) (argument : Name)
    (rparen word : ByteRange) (label : Name) :
    aggregation function argument label =
      ((ColumnTree.aggregation function lparen argument rparen word label).described,
        [function].filter isUnknown) := by
  unfold aggregation
  cases h : Aggregate.ofName? function.value with
  | some f => simp [ColumnTree.described, isUnknown, h]; rfl
  | none => simp [ColumnTree.described, isUnknown, h]; rfl

/-- A column is read exactly from the tokens of a tree of a column. -/
theorem column_eq_ok_iff {rest : Rest} {x : (Column ByteRange × List Name) × Rest} :
    column rest = .ok x ↔ ∃ c : ColumnTree, rest = c.lexemes ++ x.2 ∧
      x.1 = (c.described, c.functions.filter isUnknown) := by
  constructor
  · intro h
    obtain ⟨⟨first, rest₁⟩, hfirst, hbehind⟩ := bind_eq_ok_iff.mp h
    obtain rfl := name_eq_ok_iff.mp hfirst
    clear h hfirst
    dsimp only at hbehind
    split at hbehind
    · obtain ⟨⟨label, rest₂⟩, hlabel, h⟩ := bind_eq_ok_iff.mp hbehind
      obtain rfl := name_eq_ok_iff.mp hlabel
      cases h
      exact ⟨.reference first _ label, rfl, rfl⟩
    · obtain ⟨⟨argument, rest₂⟩, hargument, h⟩ := bind_eq_ok_iff.mp hbehind
      obtain ⟨⟨rparen, rest₃⟩, hrparen, h⟩ := bind_eq_ok_iff.mp h
      obtain ⟨⟨word, rest₄⟩, hword, h⟩ := bind_eq_ok_iff.mp h
      obtain ⟨⟨label, rest₅⟩, hlabel, h⟩ := bind_eq_ok_iff.mp h
      obtain rfl := name_eq_ok_iff.mp hargument
      obtain rfl := token_eq_ok_iff.mp hrparen
      obtain rfl := token_eq_ok_iff.mp hword
      obtain rfl := name_eq_ok_iff.mp hlabel
      cases h
      exact ⟨.aggregation first _ argument rparen word label, rfl, aggregation_eq _ _ _ _ _ _⟩
    · cases hbehind
  · obtain ⟨x, rest'⟩ := x
    rintro ⟨c, rfl, rfl⟩
    cases c with
    | reference source word label => rfl
    | aggregation function lparen argument rparen word label =>
      rw [ColumnTree.functions, ← aggregation_eq function lparen argument rparen word label]
      rfl

theorem columns_sound {rest : Rest} {x : List (Column ByteRange) × Progress}
    (h : columns rest = .ok x) : ∃ c : ColumnsTree, rest = c.lexemes ++ x.2.rest ∧
      x.1 = c.described ∧ x.2.unknown = c.functions.filter isUnknown := by
  -- Behind a column stand a comma and a name, a comma alone, or none.
  fun_induction columns rest generalizing x with
  | case1 => cases h
  | case2 => cases h
  | case3 rest c unknown comma text place more hc _ cs p hcs ih =>
    cases h
    obtain ⟨t, rfl, ht⟩ := column_eq_ok_iff.mp hc
    obtain ⟨rfl, rfl⟩ := Prod.mk.inj ht
    obtain ⟨ts, hmore, hts, hunknown⟩ := ih hcs
    refine ⟨.more t comma ts, ?_, ?_, ?_⟩
    · rw [hmore, ColumnsTree.lexemes, List.append_assoc]
      rfl
    · rw [ColumnsTree.described, ← hts]
    · rw [ColumnsTree.functions, List.filter_append, ← hunknown]
      rfl
  | case4 rest c unknown comma more _ hc =>
    cases h
    obtain ⟨t, rfl, ht⟩ := column_eq_ok_iff.mp hc
    obtain ⟨rfl, rfl⟩ := Prod.mk.inj ht
    exact ⟨.last t (some comma), by rw [ColumnsTree.lexemes, List.append_assoc]; rfl, rfl, rfl⟩
  | case5 rest c unknown more _ _ hc =>
    cases h
    obtain ⟨t, rfl, ht⟩ := column_eq_ok_iff.mp hc
    obtain ⟨rfl, rfl⟩ := Prod.mk.inj ht
    exact ⟨.last t none, by rw [ColumnsTree.lexemes, List.append_assoc]; rfl, rfl, rfl⟩

/-- The list goes on where a comma and a name follow a column. -/
theorem columns_of_more {rest more : Rest} {c : Column ByteRange} {unknown : List Name}
    {comma : ByteRange} {n : Name} {cs : List (Column ByteRange)} {p : Progress}
    (hc : column rest = .ok ((c, unknown), ⟨.comma, comma⟩ :: ident n :: more))
    (hcs : columns (ident n :: more) = .ok (cs, p)) :
    columns rest = .ok (c :: cs, p.after unknown) := by
  rw [columns]
  split
  · next h => cases hc.symm.trans h
  · next h =>
    cases hc.symm.trans h
    rw [show columns (⟨.ident n.value, n.place⟩ :: more) = .ok (cs, p) from hcs]
  · next hne h =>
    cases hc.symm.trans h
    exact absurd rfl (hne n.value n.place more)
  · next _ hne h =>
    cases hc.symm.trans h
    exact absurd rfl (hne comma (ident n :: more))

/-- The list ends, with or without a comma behind it, where no column can follow. -/
theorem columns_of_last {rest more : Rest} {c : Column ByteRange} {unknown : List Name}
    {comma : Option ByteRange} (hc : column rest = .ok ((c, unknown), commaLexemes comma ++ more))
    (hmore : EndsColumns more) : columns rest = .ok ([c], ⟨more, unknown⟩) := by
  rw [columns]
  cases comma with
  | none =>
    rw [commaLexemes, Option.map_none, Option.toList_none, List.nil_append] at hc
    split
    · next h => cases hc.symm.trans h
    · next h =>
      cases hc.symm.trans h
      exact (EndsColumns.ne_comma hmore).elim
    · next hne h =>
      cases hc.symm.trans h
      exact (EndsColumns.ne_comma hmore).elim
    · next h =>
      cases hc.symm.trans h
      rfl
  | some comma =>
    have hc : column rest = .ok ((c, unknown), ⟨.comma, comma⟩ :: more) := hc
    split
    · next h => cases hc.symm.trans h
    · next h =>
      cases hc.symm.trans h
      exact (EndsColumns.ne_ident (n := ⟨_, _⟩) hmore).elim
    · next h =>
      cases hc.symm.trans h
      rfl
    · next _ hne h =>
      cases hc.symm.trans h
      exact absurd rfl (hne comma more)

/-- The condition on what follows is needed: the comma behind the last column would take a further
name for a column. -/
theorem columns_complete (c : ColumnsTree) {rest : Rest} (h : EndsColumns rest) :
    columns (c.lexemes ++ rest) =
      .ok (c.described, ⟨rest, c.functions.filter isUnknown⟩) := by
  have hcolumn (c : ColumnTree) (rest : Rest) : column (c.lexemes ++ rest) =
      .ok ((c.described, c.functions.filter isUnknown), rest) := column_eq_ok_iff.mpr ⟨c, rfl, rfl⟩
  induction c with
  | last c comma =>
    rw [ColumnsTree.lexemes, List.append_assoc]
    exact columns_of_last (hcolumn c _) h
  | more c comma cs ih =>
    obtain ⟨n, l, m, behind, hcs, -⟩ := cs.exists_lexemes_eq
    rw [hcs] at ih
    rw [ColumnsTree.lexemes, List.append_assoc, hcs]
    refine (columns_of_more (hcolumn c _) ih).trans ?_
    rw [Progress.after, ColumnsTree.functions, List.filter_append]
    rfl

/-! ## Entities -/

theorem entities_sound (rest : Rest) : ∃ es : List EntityTree,
    rest = es.flatMap EntityTree.lexemes ++ (entities rest).2 ∧
      (entities rest).1 = es.map (·.name) := by
  -- Behind a name stand a comma, what makes it a column, or neither.
  fun_induction entities rest with
  | case1 text place comma rest names rest' hmore ih =>
    obtain ⟨es, hrest, hnames⟩ := ih
    rw [hmore] at hrest hnames
    refine ⟨⟨⟨text, place⟩, some comma⟩ :: es, ?_, ?_⟩
    · rw [hrest]
      simp [EntityTree.lexemes, commaLexemes, ident]
    · rw [List.map_cons, ← hnames]
  | case2 text place rest _ _ => exact ⟨[], rfl, rfl⟩
  | case3 text place rest _ _ names rest' hmore ih =>
    obtain ⟨es, hrest, hnames⟩ := ih
    rw [hmore] at hrest hnames
    refine ⟨⟨⟨text, place⟩, none⟩ :: es, ?_, ?_⟩
    · rw [hrest]
      simp [EntityTree.lexemes, commaLexemes, ident]
    · rw [List.map_cons, ← hnames]
  | case4 rest _ _ => exact ⟨[], rfl, rfl⟩

/-- A name that begins a column ends the entities. -/
theorem entities_of_beginsColumn {n : Name} {rest : Rest} (h : beginsColumn rest = true) :
    entities (ident n :: rest) = ([], ident n :: rest) := by
  rw [ident, entities.eq_2 _ _ _ (by rintro p more rfl; cases h), if_pos h]

theorem entities_of_not_beginsColumn {n : Name} {comma : Option ByteRange} {rest : Rest}
    (h : beginsColumn (commaLexemes comma ++ rest) = false)
    (hrest : ∀ p more, rest ≠ ⟨.comma, p⟩ :: more) :
    entities (ident n :: (commaLexemes comma ++ rest)) =
      (n :: (entities rest).1, (entities rest).2) := by
  cases comma with
  | some p => rfl
  | none =>
    have h : beginsColumn rest = false := h
    change entities (⟨.ident n.value, n.place⟩ :: rest) = _
    rw [entities.eq_2 _ _ _ hrest, if_neg (by simp [h])]

/-- Entities end where the columns begin: the first name of a column is followed by what makes it a
column. -/
theorem entities_complete (es : List EntityTree) (c : ColumnsTree) (rest : Rest) :
    entities (es.flatMap EntityTree.lexemes ++ (c.lexemes ++ rest)) =
      (es.map (·.name), c.lexemes ++ rest) := by
  obtain ⟨n, l, m, behind, hc, hl⟩ := c.exists_lexemes_eq
  induction es with
  | nil =>
    rw [List.flatMap_nil, List.nil_append, hc]
    exact entities_of_beginsColumn ((beginsColumn_cons _ _).trans hl)
  | cons e es ih =>
    have hentity := entities_of_not_beginsColumn (n := e.name)
      (beginsColumn_entities e.comma es c rest) (entities_append_ne_comma es c rest)
    rw [ih] at hentity
    rw [List.flatMap_cons, EntityTree.lexemes, List.append_assoc]
    exact hentity

/-- What stands in the brackets of a join is a list of columns, with entities in front of it or
without. -/
theorem joinColumns_sound {rest : Rest} {x : (List Name × List (Column ByteRange)) × Progress}
    (h : joinColumns rest = .ok x) : ∃ (u : Option UsingTree) (c : ColumnsTree),
      rest = usingLexemes u ++ (c.lexemes ++ x.2.rest) ∧ x.1 = (usingNames u, c.described) ∧
        x.2.unknown = c.functions.filter isUnknown := by
  unfold joinColumns at h
  split at h
  · next word rest =>
    obtain ⟨es, hrest, hnames⟩ := entities_sound rest
    split at h
    · cases h
    · next names rest' hne hentities =>
      rw [hentities] at hrest hnames
      split at h
      · obtain ⟨⟨cs, p⟩, hcs, rfl⟩ := map_eq_ok_iff.mp h
        obtain ⟨c, rfl, rfl, hunknown⟩ := columns_sound hcs
        cases es with
        | nil => exact (hne hnames).elim
        | cons e es =>
          refine ⟨some ⟨word, e, es⟩, c, ?_, ?_, hunknown⟩
          · rw [hrest]
            rfl
          · rw [show names = _ from hnames]
            rfl
      · cases h
  · obtain ⟨⟨cs, p⟩, hcs, rfl⟩ := map_eq_ok_iff.mp h
    obtain ⟨c, hrest, rfl, hunknown⟩ := columns_sound hcs
    exact ⟨none, c, hrest, rfl, hunknown⟩

theorem joinColumns_complete (u : Option UsingTree) (c : ColumnsTree) {rest : Rest}
    (h : EndsColumns rest) : joinColumns (usingLexemes u ++ (c.lexemes ++ rest)) =
      .ok ((usingNames u, c.described), ⟨rest, c.functions.filter isUnknown⟩) := by
  have hcolumns := columns_complete c h
  obtain ⟨n, l, m, behind, hc, -⟩ := c.exists_lexemes_eq
  cases u with
  | none =>
    have hplain : joinColumns (c.lexemes ++ rest) =
        (columns (c.lexemes ++ rest)).map fun x => (([], x.1), x.2) := by
      rw [hc]
      rfl
    rw [usingLexemes, Option.map_none, Option.getD_none, List.nil_append, hplain, hcolumns]
    rfl
  | some u =>
    have hentities := entities_complete u.entities c rest
    have hsecond : secondName (c.lexemes ++ rest) = true := by
      rw [hc]
      rfl
    change joinColumns (⟨.keyword .usingList, u.word⟩ :: (_ ++ _)) = _
    rw [joinColumns, hentities]
    simp only [UsingTree.entities, List.map_cons, hsecond, if_true, hcolumns]
    rfl

/-! ## Clauses -/

theorem filter_sound {rest : Rest} {x : Option (Filter ByteRange) × Rest}
    (h : filter rest = .ok x) : ∃ f : Option FilterTree,
      rest = filterLexemes f ++ x.2 ∧ x.1 = f.map FilterTree.described := by
  unfold filter at h
  split at h
  · obtain ⟨⟨lparen, rest₁⟩, hlparen, h⟩ := bind_eq_ok_iff.mp h
    obtain ⟨⟨column, rest₂⟩, hcolumn, h⟩ := bind_eq_ok_iff.mp h
    obtain ⟨⟨comparison, rest₃⟩, hcomparison, h⟩ := bind_eq_ok_iff.mp h
    obtain ⟨⟨literal, rest₄⟩, hliteral, h⟩ := bind_eq_ok_iff.mp h
    obtain ⟨⟨rparen, rest₅⟩, hrparen, h⟩ := bind_eq_ok_iff.mp h
    obtain ⟨l, hl, rfl⟩ := literal_eq_ok_iff.mp hliteral
    cases h
    rw [token_eq_ok_iff.mp hlparen, name_eq_ok_iff.mp hcolumn, comparison_eq_ok_iff.mp hcomparison,
      hl, token_eq_ok_iff.mp hrparen]
    exact ⟨some ⟨_, lparen, column, comparison, l, rparen⟩, rfl, rfl⟩
  · cases h
    exact ⟨none, rfl, rfl⟩

theorem filter_complete (f : Option FilterTree) (x : ByteRange) (rest : Rest) :
    filter (filterLexemes f ++ ⟨.rparen, x⟩ :: rest) =
      .ok (f.map FilterTree.described, ⟨.rparen, x⟩ :: rest) := by
  cases f with
  | none => rfl
  | some f =>
    obtain ⟨word, lparen, column, comparison, literal, rparen⟩ := f
    cases literal <;> rfl

/-- The tokens that `select` takes off the front are those of a select clause. -/
theorem select_sound {rest : Rest} {x : SelectClause ByteRange × Progress}
    (h : select rest = .ok x) : ∃ s : SelectTree, rest = s.lexemes ++ x.2.rest ∧
      x.1 = s.described ∧ x.2.unknown = s.columns.functions.filter isUnknown := by
  obtain ⟨⟨word, rest₁⟩, hword, h⟩ := bind_eq_ok_iff.mp h
  obtain ⟨⟨⟨selector, event⟩, rest₂⟩, hevent, h⟩ := bind_eq_ok_iff.mp h
  obtain ⟨⟨lparen, rest₃⟩, hlparen, h⟩ := bind_eq_ok_iff.mp h
  obtain ⟨⟨cs, p⟩, hcolumns, h⟩ := bind_eq_ok_iff.mp h
  obtain ⟨⟨rparen, rest₄⟩, hrparen, h⟩ := bind_eq_ok_iff.mp h
  obtain ⟨e, he, hs⟩ := selectedEvent_eq_ok_iff.mp (mapError_eq_ok_iff.mp hevent)
  obtain ⟨c, hc, hdescribed, hunknown⟩ := columns_sound hcolumns
  cases h
  cases hs
  refine ⟨⟨word, e, lparen, c, rparen⟩, ?_, ?_, hunknown⟩
  · rw [token_eq_ok_iff.mp (mapError_eq_ok_iff.mp hword), he,
      token_eq_ok_iff.mp (mapError_eq_ok_iff.mp hlparen), hc,
      token_eq_ok_iff.mp (mapError_eq_ok_iff.mp hrparen), SelectTree.lexemes_append]
  · rw [SelectTree.described, SelectTree.extent_lexemes]
    cases hdescribed
    rfl

theorem mapError_eq_ok {ε ε' α : Type} {f : ε → ε'} {r : Except ε α} {x : α} (h : r = .ok x) :
    r.mapError f = .ok x := by
  rw [h]
  rfl

theorem select_complete (s : SelectTree) (rest : Rest) :
    select (s.lexemes ++ rest) =
      .ok (s.described, ⟨rest, s.columns.functions.filter isUnknown⟩) := by
  rw [SelectTree.lexemes_append]
  refine bind_eq_ok_iff.mpr ⟨(s.word, _), mapError_eq_ok (token_eq_ok_iff.mpr rfl), ?_⟩
  refine bind_eq_ok_iff.mpr ⟨((s.event.selector, s.event.event), _),
    mapError_eq_ok (selectedEvent_eq_ok_iff.mpr ⟨s.event, rfl, rfl⟩), ?_⟩
  refine bind_eq_ok_iff.mpr ⟨(s.lparen, _), mapError_eq_ok (token_eq_ok_iff.mpr rfl), ?_⟩
  refine bind_eq_ok_iff.mpr ⟨_, columns_complete s.columns (endsColumns_filter none _ _), ?_⟩
  refine bind_eq_ok_iff.mpr ⟨(s.rparen, rest), mapError_eq_ok (token_eq_ok_iff.mpr rfl), ?_⟩
  rw [SelectTree.described, SelectTree.extent_lexemes]
  rfl

/-- The tokens that `join` takes off the front, behind the word itself, are those of a join. -/
theorem join_sound {word : ByteRange} {rest : Rest}
    {x : (JoinClause ByteRange × List Name) × Rest} (h : join word rest = .ok x) :
    ∃ j : JoinTree, ⟨.keyword .join, word⟩ :: rest = j.lexemes ++ x.2 ∧
      x.1 = (j.described, j.columns.functions.filter isUnknown) := by
  obtain ⟨⟨qualifier, rest₁⟩, hqualifier, h⟩ := bind_eq_ok_iff.mp h
  obtain ⟨⟨⟨selector, event⟩, rest₂⟩, hevent, h⟩ := bind_eq_ok_iff.mp h
  obtain ⟨⟨lparen, rest₃⟩, hlparen, h⟩ := bind_eq_ok_iff.mp h
  obtain ⟨⟨⟨names, cs⟩, p⟩, hcolumns, h⟩ := bind_eq_ok_iff.mp h
  obtain ⟨⟨f, rest₄⟩, hfilter, h⟩ := bind_eq_ok_iff.mp h
  obtain ⟨⟨rparen, rest₅⟩, hrparen, h⟩ := bind_eq_ok_iff.mp h
  obtain ⟨e, he, hs⟩ := selectedEvent_eq_ok_iff.mp hevent
  obtain ⟨u, c, hc, hdescribed, hunknown⟩ := joinColumns_sound (mapError_eq_ok_iff.mp hcolumns)
  obtain ⟨t, ht, hf⟩ := filter_sound hfilter
  cases h
  cases hs
  cases hdescribed
  refine ⟨⟨word, qualifier, e, lparen, u, c, t, rparen⟩, ?_, ?_⟩
  · rw [qualifier_eq_ok_iff.mp hqualifier, he, token_eq_ok_iff.mp hlparen, hc, ht,
      token_eq_ok_iff.mp hrparen, JoinTree.lexemes_append]
  · rw [JoinTree.described, JoinTree.extent_lexemes]
    cases hf
    exact Prod.ext rfl hunknown

/-- A join is read whatever stands behind it, for it ends at its bracket. -/
theorem join_complete (j : JoinTree) (rest : Rest) :
    ∃ behind, j.lexemes ++ rest = ⟨.keyword .join, j.word⟩ :: behind ∧
      join j.word behind = .ok ((j.described, j.columns.functions.filter isUnknown), rest) := by
  refine ⟨_, j.lexemes_append rest, ?_⟩
  refine bind_eq_ok_iff.mpr ⟨(j.qualifier, _), qualifier_eq_ok_iff.mpr rfl, ?_⟩
  refine bind_eq_ok_iff.mpr ⟨((j.event.selector, j.event.event), _),
    selectedEvent_eq_ok_iff.mpr ⟨j.event, rfl, rfl⟩, ?_⟩
  refine bind_eq_ok_iff.mpr ⟨(j.lparen, _), token_eq_ok_iff.mpr rfl, ?_⟩
  refine bind_eq_ok_iff.mpr ⟨_, mapError_eq_ok
    (joinColumns_complete j.entities j.columns (endsColumns_filter _ _ _)), ?_⟩
  refine bind_eq_ok_iff.mpr ⟨_, filter_complete j.filter j.rparen rest, ?_⟩
  refine bind_eq_ok_iff.mpr ⟨(j.rparen, rest), token_eq_ok_iff.mpr rfl, ?_⟩
  rw [JoinTree.described, JoinTree.extent_lexemes]
  rfl

/-! ## The whole query -/

theorem joins_sound {rest : Rest} {x : List (JoinClause ByteRange) × List Name}
    (h : joins rest = .ok x) : ∃ js : List JoinTree, rest = js.flatMap JoinTree.lexemes ∧
      x = (js.map JoinTree.described,
        (js.flatMap (·.columns.functions)).filter isUnknown) := by
  fun_induction joins rest generalizing x with
  | case1 =>
    cases h
    exact ⟨[], rfl, rfl⟩
  | case2 => cases h
  | case3 => cases h
  | case4 word rest j unknown rest' hj _ js unknown' hjs ih =>
    cases h
    obtain ⟨t, ht, hdescribed⟩ := join_sound hj
    obtain ⟨ts, rfl, hts⟩ := ih hjs
    cases hdescribed
    cases hts
    exact ⟨t :: ts, ht, by simp⟩
  | case5 => cases h

theorem joins_complete (js : List JoinTree) : joins (js.flatMap JoinTree.lexemes) =
    .ok (js.map JoinTree.described, (js.flatMap (·.columns.functions)).filter isUnknown) := by
  induction js with
  | nil =>
    rw [List.flatMap_nil, joins]
    rfl
  | cons j js ih =>
    obtain ⟨behind, hlexemes, hj⟩ := join_complete j (js.flatMap JoinTree.lexemes)
    rw [List.flatMap_cons, hlexemes, joins]
    split
    · next h => cases hj.symm.trans h
    · next h =>
      cases hj.symm.trans h
      rw [ih]
      simp

theorem query_complete (t : QueryTree) :
    query t.lexemes = .ok (t.described, t.functions.filter isUnknown) := by
  refine bind_eq_ok_iff.mpr ⟨_, select_complete t.select _, ?_⟩
  refine bind_eq_ok_iff.mpr ⟨_, mapError_eq_ok (joins_complete t.joins), ?_⟩
  have hstop : ((t.joins.map JoinTree.described).getLast?.map (·.place)).getD
      t.select.described.place =
        (t.joins.getLast?.map fun j => extent j.lexemes).getD (extent t.select.lexemes) := by
    rw [List.getLast?_map, Option.map_map]
    rfl
  rw [QueryTree.described, QueryTree.extent_lexemes, ← hstop, QueryTree.functions,
    List.filter_append]
  rfl

/-- The readings of a list of tokens are the trees whose tokens they are, with the unknown functions
of each in the order they are written. -/
theorem query_eq_ok_iff {lexemes : Rest} {x : Query ByteRange × List Name} :
    query lexemes = .ok x ↔ ∃ t : QueryTree, t.lexemes = lexemes ∧
      x = (t.described, t.functions.filter isUnknown) := by
  constructor
  · intro h
    obtain ⟨⟨s, p⟩, hselect, hbehind⟩ := bind_eq_ok_iff.mp h
    obtain ⟨⟨js, unknown⟩, hjoins, -⟩ := bind_eq_ok_iff.mp hbehind
    obtain ⟨t, ht, -⟩ := select_sound hselect
    obtain ⟨ts, hts, -⟩ := joins_sound (mapError_eq_ok_iff.mp hjoins)
    obtain rfl : QueryTree.lexemes ⟨t, ts⟩ = lexemes := by
      rw [ht, hts]
      rfl
    exact ⟨⟨t, ts⟩, rfl, Except.ok.inj (h.symm.trans (query_complete _))⟩
  · rintro ⟨t, rfl, rfl⟩
    exact query_complete t

theorem isUnknown_eq_false_iff {f : Name} : isUnknown f = false ↔ IsKnown f.value := by
  rw [isUnknown, ← isSome_ofName?_iff, Option.isNone_eq_false_iff]

theorem filter_isUnknown_eq_nil {functions : List Name} (h : ∀ f ∈ functions, IsKnown f.value) :
    functions.filter isUnknown = [] :=
  List.filter_eq_nil_iff.mpr fun f hf =>
    Bool.eq_false_iff.mp (isUnknown_eq_false_iff.mpr (h f hf))

end EventQuery.Parser

namespace EventQuery

open Grammar EventQuery.Parser

section
variable {text : String} {lexemes : List Lexeme} (hlex : Source.lex text.toList = .ok lexemes)
include hlex

/-- A text whose tokens are those of a tree parses unless some function in it is unknown, and then
the first of them is reported. -/
theorem Query.parse_eq_of_lexemes {t : QueryTree} (ht : t.lexemes = lexemes) :
    Query.parse text = match t.functions.filter isUnknown with
      | [] => .ok (t.described.map (Source.span text.toList))
      | f :: _ => .error ⟨.unknownFunction f.value, Source.span text.toList f.place⟩ := by
  have hquery := query_eq_ok_iff.mpr ⟨t, ht, rfl⟩
  rw [Query.parse, parseBytes, hlex]
  simp only [parseLexemes, hquery]
  cases t.functions.filter isUnknown with
  | nil => rfl
  | cons f fs => rfl

theorem Query.parse_eq_ok {t : QueryTree} (ht : t.lexemes = lexemes)
    (hknown : ∀ f ∈ t.functions, IsKnown f.value) :
    Query.parse text = .ok (t.described.map (Source.span text.toList)) := by
  rw [Query.parse_eq_of_lexemes hlex ht, filter_isUnknown_eq_nil hknown]

/-- What parses has a tree in which every function is known. -/
theorem Query.exists_tree_of_parse {q : Query Span} (h : Query.parse text = .ok q) :
    ∃ t : QueryTree, t.lexemes = lexemes ∧ ∀ f ∈ t.functions, IsKnown f.value := by
  rw [Query.parse, parseBytes, hlex] at h
  simp only [parseLexemes] at h
  cases hquery : query lexemes with
  | error p =>
    obtain ⟨stuck, _ | ⟨f, fs⟩⟩ := p
    · rw [hquery] at h
      cases h
    · rw [hquery] at h
      cases h
  | ok x =>
    obtain ⟨t, ht, rfl⟩ := query_eq_ok_iff.mp hquery
    refine ⟨t, ht, fun f hf => isUnknown_eq_false_iff.mp (Bool.eq_false_iff.mpr fun hunknown => ?_)⟩
    have hmem : f ∈ t.functions.filter isUnknown := List.mem_filter.mpr ⟨hf, hunknown⟩
    cases hfilter : t.functions.filter isUnknown with
    | nil =>
      rw [hfilter] at hmem
      cases hmem
    | cons g gs =>
      rw [hquery, hfilter] at h
      cases h

end

end EventQuery
