import EventQuery.Proofs.Query.Parsing

/-! Reading does not look at places. With the places of all tokens forgotten, a reading gives what
it gave before, with its places forgotten; so the tokens alone decide what a text says, and which
token it is refused at. -/

namespace EventQuery.Parser

open Outcome

/-- All places are made the same. -/
def nowhere (_ : ByteRange) : ByteRange := ⟨0, 0⟩

def forget (rest : Rest) : Rest := rest.map (·.map nowhere)

def forgetNames (names : List Name) : List Name := names.map (·.map nowhere)

def Progress.forget (p : Progress) : Progress := ⟨Parser.forget p.rest, forgetNames p.unknown⟩

theorem Progress.forget_after (unknown : List Name) (p : Progress) :
    (p.after unknown).forget = p.forget.after (forgetNames unknown) := by
  simp [Progress.forget, Progress.after, forgetNames]

/-- A token is still seen at the front when places are forgotten. -/
theorem exists_of_forget_eq_cons {rest more : Rest} {t : Token} {p : ByteRange}
    (h : forget rest = ⟨t, p⟩ :: more) : ∃ p' more', rest = ⟨t, p'⟩ :: more' := by
  cases rest with
  | nil => cases h
  | cons l rest =>
    obtain ⟨t', p'⟩ := l
    obtain ⟨hl, -⟩ := List.cons.inj h
    cases hl
    exact ⟨p', rest, rfl⟩

/-! ## Single tokens -/

theorem name_forget (rest : Rest) :
    name (forget rest) = both forget (Prod.map (·.map nowhere) forget) (name rest) := by
  cases rest with
  | nil => rfl
  | cons l rest =>
    obtain ⟨t, p⟩ := l
    cases t <;> rfl

theorem token_forget (t : Token) (rest : Rest) :
    token t (forget rest) = both forget (Prod.map nowhere forget) (token t rest) := by
  cases rest with
  | nil => rfl
  | cons l rest =>
    obtain ⟨t', p⟩ := l
    change token t (⟨t', nowhere p⟩ :: forget rest) = _
    rw [token, token]
    split <;> rfl

theorem qualifier_forget (rest : Rest) :
    qualifier (forget rest) = both forget (Prod.map (·.map nowhere) forget) (qualifier rest) := by
  cases rest with
  | nil => rfl
  | cons l rest =>
    obtain ⟨t, p⟩ := l
    cases t with
    | keyword k => cases k <;> rfl
    | _ => rfl

theorem comparison_forget (rest : Rest) :
    comparison (forget rest) = both forget (Prod.map (·.map nowhere) forget) (comparison rest) := by
  cases rest with
  | nil => rfl
  | cons l rest =>
    obtain ⟨t, p⟩ := l
    cases t <;> rfl

theorem literal_forget (rest : Rest) :
    literal (forget rest) = both forget (Prod.map (·.map nowhere) forget) (literal rest) := by
  cases rest with
  | nil => rfl
  | cons l rest =>
    obtain ⟨t, p⟩ := l
    cases t <;> rfl

/-- An omitted selector has the place of its event, which is forgotten with it. -/
theorem selectedEvent_forget (rest : Rest) :
    selectedEvent (forget rest) = both forget
      (Prod.map (Prod.map (·.map nowhere) (·.map nowhere)) forget) (selectedEvent rest) := by
  cases rest with
  | nil => rfl
  | cons l rest =>
    obtain ⟨t, p⟩ := l
    cases t with
    | keyword k =>
      cases k with
      | first | last => exact bind_eq_both (name_forget rest) fun _ => rfl
      | _ => rfl
    | _ => rfl

/-! ## Columns -/

theorem aggregation_forget (function argument label : Name) :
    aggregation (function.map nowhere) (argument.map nowhere) (label.map nowhere) =
      Prod.map (·.map nowhere) forgetNames (aggregation function argument label) := by
  simp only [aggregation, Located.map]
  cases Aggregate.ofName? function.value <;> rfl

/-- A column is read from its tokens alone, its unknown function included. -/
theorem column_forget (rest : Rest) :
    column (forget rest) = both forget
      (Prod.map (Prod.map (·.map nowhere) forgetNames) forget) (column rest) := by
  refine bind_eq_both (name_forget rest) fun ⟨first, rest⟩ => ?_
  cases rest with
  | nil => rfl
  | cons l rest =>
    obtain ⟨t, p⟩ := l
    cases t with
    | keyword k =>
      cases k with
      | asName => exact bind_eq_both (name_forget rest) fun _ => rfl
      | _ => rfl
    | lparen =>
      refine bind_eq_both (name_forget rest) fun ⟨argument, rest⟩ => ?_
      refine bind_eq_both (token_forget .rparen rest) fun ⟨_, rest⟩ => ?_
      refine bind_eq_both (token_forget (.keyword .asName) rest) fun ⟨_, rest⟩ => ?_
      refine bind_eq_both (name_forget rest) fun ⟨label, rest⟩ => ?_
      exact congrArg (fun c => Except.ok (c, forget rest)) (aggregation_forget first argument label)
    | _ => rfl

/-- One step of reading columns. -/
theorem columns_eq (rest : Rest) : columns rest =
    match column rest with
    | .error stuck => .error ⟨stuck, []⟩
    | .ok ((c, unknown), ⟨.comma, _⟩ :: ⟨.ident text, place⟩ :: more) =>
      both (·.after unknown) (fun x => (c :: x.1, x.2.after unknown))
        (columns (⟨.ident text, place⟩ :: more))
    | .ok ((c, unknown), ⟨.comma, _⟩ :: more) => .ok ([c], ⟨more, unknown⟩)
    | .ok ((c, unknown), rest) => .ok ([c], ⟨rest, unknown⟩) := by
  fun_cases columns rest with
  | case1 stuck hc => rw [hc]
  | case2 c unknown comma text place more hc _ p hcs =>
    simp only [hc, hcs]
    rfl
  | case3 c unknown comma text place more hc _ cs p hcs =>
    simp only [hc, hcs]
    rfl
  | case4 c unknown comma more hne hc => simp only [hc]
  | case5 c unknown more _ hne hc => simp only [hc]

/-- By the recursion of the reading, which takes the same branch with and without places. -/
theorem columns_forget (rest : Rest) :
    columns (forget rest) = both Progress.forget
      (Prod.map (List.map (·.map nowhere)) Progress.forget) (columns rest) := by
  fun_induction columns rest with
  | case1 rest stuck hc =>
    rw [columns_eq, column_forget, hc]
    rfl
  | case2 rest c unknown comma text place more hc _ p hcs ih =>
    rw [columns_eq, column_forget, hc]
    change both _ _ (columns (forget (⟨.ident text, place⟩ :: more))) = _
    rw [ih, hcs]
    exact congrArg Except.error (p.forget_after unknown).symm
  | case3 rest c unknown comma text place more hc _ cs p hcs ih =>
    rw [columns_eq, column_forget, hc]
    change both _ _ (columns (forget (⟨.ident text, place⟩ :: more))) = _
    rw [ih, hcs]
    exact congrArg (fun p => Except.ok (_, p)) (p.forget_after unknown).symm
  | case4 rest c unknown comma more hne hc =>
    rw [columns_eq, column_forget, hc]
    cases more with
    | nil => rfl
    | cons l more =>
      obtain ⟨t, p⟩ := l
      cases t with
      | ident text => exact absurd rfl (hne text p more)
      | _ => rfl
  | case5 rest c unknown more _ hne hc =>
    rw [columns_eq, column_forget, hc]
    cases more with
    | nil => rfl
    | cons l more =>
      obtain ⟨t, p⟩ := l
      cases t with
      | comma => exact absurd rfl (hne p more)
      | _ => rfl

/-! ## Entities -/

theorem beginsColumn_forget (rest : Rest) : beginsColumn (forget rest) = beginsColumn rest := by
  cases rest with
  | nil => rfl
  | cons l rest =>
    obtain ⟨t, p⟩ := l
    cases t with
    | keyword k => cases k <;> rfl
    | _ => rfl

/-- Entities end at the same token with and without places. -/
theorem entities_forget (rest : Rest) :
    entities (forget rest) = Prod.map forgetNames forget (entities rest) := by
  have hcomma {rest : Rest} (hne : ∀ p more, rest ≠ ⟨.comma, p⟩ :: more) :
      ∀ p more, forget rest = ⟨.comma, p⟩ :: more → False := by
    intro p more h
    obtain ⟨p', more', hrest⟩ := exists_of_forget_eq_cons h
    exact hne p' more' hrest
  fun_induction entities rest with
  | case1 text place comma rest names rest' hmore ih =>
    change (_ :: (entities (forget rest)).1, (entities (forget rest)).2) = _
    rw [ih, hmore]
    rfl
  | case2 text place rest hne hbegins =>
    change entities (⟨.ident text, nowhere place⟩ :: forget rest) = _
    rw [entities.eq_2 _ _ _ (hcomma hne), beginsColumn_forget, if_pos hbegins]
    rfl
  | case3 text place rest hne hbegins names rest' hmore ih =>
    change entities (⟨.ident text, nowhere place⟩ :: forget rest) = _
    rw [entities.eq_2 _ _ _ (hcomma hne), beginsColumn_forget, if_neg hbegins, ih, hmore]
    rfl
  | case4 rest _ hne =>
    cases rest with
    | nil => rfl
    | cons l rest =>
      obtain ⟨t, p⟩ := l
      cases t with
      | ident text => exact absurd rfl (hne text p rest)
      | _ => rfl

theorem pastName_forget (rest : Rest) : pastName (forget rest) = forget (pastName rest) := by
  cases rest with
  | nil => rfl
  | cons l rest =>
    obtain ⟨t, p⟩ := l
    cases t with
    | ident text =>
      change (if beginsColumn (forget rest) then _ else _) = forget (if _ then _ else _)
      rw [beginsColumn_forget]
      split <;> rfl
    | _ => rfl

theorem secondName_forget (rest : Rest) : secondName (forget rest) = secondName rest := by
  match rest with
  | [] | [_] | [_, _] => rfl
  | _ :: _ :: ⟨t, _⟩ :: _ => cases t <;> rfl

/-- Where a list of entities is stuck is decided by tokens alone, too. -/
theorem joinColumns_forget (rest : Rest) :
    joinColumns (forget rest) = both Progress.forget
      (Prod.map (Prod.map forgetNames (List.map (·.map nowhere))) Progress.forget)
      (joinColumns rest) := by
  have hcolumns (names : List Name) (rest : Rest) :
      (columns (forget rest)).map (fun x => ((forgetNames names, x.1), x.2)) =
        both Progress.forget
          (Prod.map (Prod.map forgetNames (List.map (·.map nowhere))) Progress.forget)
          ((columns rest).map fun x => ((names, x.1), x.2)) := by
    rw [columns_forget]
    cases columns rest <;> rfl
  fun_cases joinColumns rest with
  | case1 place rest rest' hentities =>
    change joinColumns (⟨.keyword .usingList, nowhere place⟩ :: forget rest) = _
    rw [joinColumns, entities_forget, hentities]
    change Except.error (Progress.mk (pastName (forget rest')) []) = _
    rw [pastName_forget]
    rfl
  | case2 place rest names rest' hne hentities hsecond =>
    obtain ⟨n, ns, rfl⟩ := List.exists_cons_of_ne_nil hne
    change joinColumns (⟨.keyword .usingList, nowhere place⟩ :: forget rest) = _
    rw [joinColumns, entities_forget, hentities]
    change (if secondName (forget rest') = true then _ else _) = _
    rw [secondName_forget, if_pos hsecond]
    exact hcolumns (n :: ns) rest'
  | case3 place rest names rest' hne hentities hsecond =>
    obtain ⟨n, ns, rfl⟩ := List.exists_cons_of_ne_nil hne
    change joinColumns (⟨.keyword .usingList, nowhere place⟩ :: forget rest) = _
    rw [joinColumns, entities_forget, hentities]
    change (if secondName (forget rest') = true then _ else _) = _
    rw [secondName_forget, if_neg hsecond, pastName_forget]
    rfl
  | case4 rest hne =>
    rw [joinColumns.eq_2 (forget rest) fun p more h => by
      obtain ⟨p', more', hrest⟩ := exists_of_forget_eq_cons h
      exact hne p' more' hrest]
    exact hcolumns [] rest

/-! ## Clauses -/

theorem filter_forget (rest : Rest) :
    filter (forget rest) = both forget (Prod.map (Option.map (·.map nowhere)) forget)
      (filter rest) := by
  cases rest with
  | nil => rfl
  | cons l rest =>
    obtain ⟨t, p⟩ := l
    cases t with
    | keyword k =>
      cases k with
      | filter =>
        refine bind_eq_both (token_forget .lparen rest) fun ⟨_, rest⟩ => ?_
        refine bind_eq_both (name_forget rest) fun ⟨column, rest⟩ => ?_
        refine bind_eq_both (comparison_forget rest) fun ⟨comparison, rest⟩ => ?_
        refine bind_eq_both (literal_forget rest) fun ⟨literal, rest⟩ => ?_
        exact bind_eq_both (token_forget .rparen rest) fun _ => rfl
      | _ => rfl
    | _ => rfl

theorem select_forget (rest : Rest) :
    select (forget rest) = both Progress.forget (Prod.map (·.map nowhere) Progress.forget)
      (select rest) := by
  refine bind_eq_both (mapError_eq_both (token_forget _ rest) fun _ => rfl) fun ⟨_, rest⟩ => ?_
  refine bind_eq_both (mapError_eq_both (selectedEvent_forget rest) fun _ => rfl)
    fun ⟨⟨selector, event⟩, rest⟩ => ?_
  refine bind_eq_both (mapError_eq_both (token_forget .lparen rest) fun _ => rfl)
    fun ⟨_, rest⟩ => ?_
  refine bind_eq_both (columns_forget rest) fun ⟨columns, p⟩ => ?_
  exact bind_eq_both (mapError_eq_both (token_forget .rparen p.rest) fun _ => rfl) fun _ => rfl

/-- The place of the first word goes into the span of a join only. -/
theorem join_forget (start : ByteRange) (rest : Rest) :
    join (nowhere start) (forget rest) = both forget
      (Prod.map (Prod.map (·.map nowhere) forgetNames) forget) (join start rest) := by
  refine bind_eq_both (qualifier_forget rest) fun ⟨qualifier, rest⟩ => ?_
  refine bind_eq_both (selectedEvent_forget rest) fun ⟨⟨selector, event⟩, rest⟩ => ?_
  refine bind_eq_both (token_forget .lparen rest) fun ⟨_, rest⟩ => ?_
  refine bind_eq_both (mapError_eq_both (joinColumns_forget rest) fun _ => rfl)
    fun ⟨⟨entities, columns⟩, p⟩ => ?_
  refine bind_eq_both (filter_forget p.rest) fun ⟨filter, rest⟩ => ?_
  exact bind_eq_both (token_forget .rparen rest) fun _ => rfl

/-! ## The whole query -/

/-- One step of reading joins. -/
theorem joins_join (start : ByteRange) (rest : Rest) :
    joins (⟨.keyword .join, start⟩ :: rest) =
      match join start rest with
      | .error stuck => .error ⟨stuck, []⟩
      | .ok ((j, unknown), rest') =>
        both (·.after unknown) (Prod.map (j :: ·) (unknown ++ ·)) (joins rest') := by
  rw [joins]
  split
  · next h => rw [h]
  · next j unknown rest' h =>
    simp only [h]
    cases joins rest' <;> rfl

theorem joins_forget (rest : Rest) :
    joins (forget rest) = both Progress.forget
      (Prod.map (List.map (·.map nowhere)) forgetNames) (joins rest) := by
  fun_induction joins rest with
  | case1 =>
    change joins [] = _
    rw [joins]
    rfl
  | case2 start rest stuck hj =>
    change joins (⟨.keyword .join, nowhere start⟩ :: forget rest) = _
    rw [joins_join, join_forget, hj]
    rfl
  | case3 start rest j unknown rest' hj _ p hjs ih =>
    change joins (⟨.keyword .join, nowhere start⟩ :: forget rest) = _
    rw [joins_join, join_forget, hj]
    change both _ _ (joins (forget rest')) = _
    rw [ih, hjs]
    exact congrArg Except.error (p.forget_after unknown).symm
  | case4 start rest j unknown rest' hj _ js unknown' hjs ih =>
    change joins (⟨.keyword .join, nowhere start⟩ :: forget rest) = _
    rw [joins_join, join_forget, hj]
    change both _ _ (joins (forget rest')) = _
    rw [ih, hjs]
    exact congrArg (fun u => Except.ok (_, u)) List.map_append.symm
  | case5 rest hnil hne =>
    rw [joins.eq_3]
    · rfl
    · intro h
      exact hnil (List.map_eq_nil_iff.mp h)
    · intro p more h
      obtain ⟨p', more', hrest⟩ := exists_of_forget_eq_cons h
      exact hne p' more' hrest

/-- A whole query is read alike with the places of its tokens forgotten, or stuck at the same
token. -/
theorem query_forget (rest : Rest) :
    query (forget rest) = both Progress.forget (Prod.map (·.map nowhere) forgetNames)
      (query rest) := by
  refine bind_eq_both (select_forget rest) fun ⟨select, p⟩ => ?_
  refine bind_eq_both (mapError_eq_both (joins_forget p.rest)
    fun q => (q.forget_after p.unknown).symm) fun ⟨joins, unknown⟩ => ?_
  have hstop : (((joins.map (·.map nowhere)).getLast?.map (·.place)).getD
      (select.map nowhere).place) = ⟨0, 0⟩ := by
    rw [List.getLast?_map]
    cases joins.getLast? <;> rfl
  change Except.ok (Query.mk _ _ (ByteRange.through ⟨0, 0⟩ (Option.getD _ _)), _) = _
  rw [hstop]
  exact congrArg (fun u => Except.ok (_, u)) List.map_append.symm

/-- What a complaint says is decided by the token it is about, not by where the text ends. -/
theorem complaint_value {stuck stuck' : Rest} (h : forget stuck = forget stuck')
    (textEnd textEnd' : Nat) (lexemes lexemes' : Rest) :
    (complaint textEnd lexemes stuck).value = (complaint textEnd' lexemes' stuck').value := by
  cases stuck with
  | nil =>
    cases stuck' with
    | nil => rfl
    | cons l' stuck' => cases h
  | cons l stuck =>
    obtain ⟨t, p⟩ := l
    obtain ⟨p', more, rfl⟩ := exists_of_forget_eq_cons h.symm
    rfl

theorem value_eq_of_forgetNames {f f' : Name} {fs fs' : List Name}
    (h : forgetNames (f :: fs) = forgetNames (f' :: fs')) : f.value = f'.value :=
  (Located.mk.inj (List.cons.inj h).1).1

/-- The same tokens give the same query or the same fault, wherever they stand. -/
theorem parseLexemes_alike {lexemes lexemes' : List Lexeme} (h : forget lexemes = forget lexemes')
    (textEnd textEnd' : Nat) :
    Alike (fun e e' => e.value = e'.value) (fun q q' => q.map nowhere = q'.map nowhere)
      (parseLexemes textEnd lexemes) (parseLexemes textEnd' lexemes') := by
  have hquery : both Progress.forget (Prod.map (·.map nowhere) forgetNames) (query lexemes) =
      both Progress.forget (Prod.map (·.map nowhere) forgetNames) (query lexemes') := by
    rw [← query_forget, ← query_forget, h]
  have hread := alike_of_both_eq hquery
  rw [parseLexemes, parseLexemes]
  -- The functions not known are told apart first: they are reported before anything else is.
  generalize query lexemes = read at hread ⊢
  generalize query lexemes' = read' at hread ⊢
  cases hread with
  | @ok x x' hx =>
    obtain ⟨q, unknown⟩ := x
    obtain ⟨q', unknown'⟩ := x'
    obtain ⟨hq, hunknown⟩ := Prod.mk.inj hx
    cases unknown <;> cases unknown'
    case nil.nil => exact .ok hq
    case nil.cons | cons.nil => cases hunknown
    case cons.cons =>
      exact .error (congrArg SyntaxFault.unknownFunction (value_eq_of_forgetNames hunknown))
  | @error p p' hp =>
    obtain ⟨stuck, unknown⟩ := p
    obtain ⟨stuck', unknown'⟩ := p'
    obtain ⟨hstuck, hunknown⟩ := Progress.mk.inj hp
    cases unknown <;> cases unknown'
    case nil.nil => exact .error (complaint_value hstuck textEnd textEnd' lexemes lexemes')
    case nil.cons | cons.nil => cases hunknown
    case cons.cons =>
      exact .error (congrArg SyntaxFault.unknownFunction (value_eq_of_forgetNames hunknown))

/-- Two lists of tokens are the same up to places if their tokens are. -/
theorem forget_eq_of_values {lexemes lexemes' : List Lexeme}
    (h : lexemes.map (·.value) = lexemes'.map (·.value)) : forget lexemes = forget lexemes' := by
  have hforget (ls : List Lexeme) :
      forget ls = (ls.map (·.value)).map fun t => ⟨t, ⟨0, 0⟩⟩ := by
    rw [List.map_map]
    rfl
  rw [hforget, hforget, h]

end EventQuery.Parser

namespace EventQuery

open Outcome

/-! ## Queries without places -/

section
variable {ρ σ τ : Type} (g : σ → τ) (f : ρ → σ)

theorem Column.map_map (c : Column ρ) : (c.map f).map g = c.map (g ∘ f) := by
  cases c <;> rfl

theorem SelectClause.map_map (s : SelectClause ρ) : (s.map f).map g = s.map (g ∘ f) := by
  simp only [SelectClause.map, List.map_map, SelectClause.mk.injEq]
  exact ⟨rfl, rfl, List.map_congr_left fun c _ => c.map_map g f, rfl⟩

theorem JoinClause.map_map (j : JoinClause ρ) : (j.map f).map g = j.map (g ∘ f) := by
  simp only [JoinClause.map, List.map_map, Option.map_map, JoinClause.mk.injEq]
  exact ⟨rfl, rfl, rfl, rfl, List.map_congr_left fun c _ => c.map_map g f, rfl, rfl⟩

/-- Moving places twice is moving them once. -/
theorem Query.map_map (q : Query ρ) : (q.map f).map g = q.map (g ∘ f) := by
  simp only [Query.map, List.map_map, Query.mk.injEq]
  exact ⟨q.select.map_map g f, List.map_congr_left fun j _ => j.map_map g f, rfl⟩

end

/-- The query alone, without the places of its parts. -/
def Query.unplaced {ρ : Type} (q : Query ρ) : Query Unit := q.map fun _ => ()

theorem Query.unplaced_map {ρ σ : Type} (f : ρ → σ) (q : Query ρ) :
    (q.map f).unplaced = q.unplaced := q.map_map _ f

/-- Texts of the same tokens read as the same query, or are refused for the same reason. -/
theorem Query.parse_alike {text text' : String} {lexemes lexemes' : List Lexeme}
    (hlex : Source.lex text.toList = .ok lexemes) (hlex' : Source.lex text'.toList = .ok lexemes')
    (h : lexemes.map (·.value) = lexemes'.map (·.value)) :
    Alike (fun e e' => e.value = e'.value) (fun q q' => q.unplaced = q'.unplaced)
      (Query.parse text) (Query.parse text') := by
  have hparsed := Parser.parseLexemes_alike (Parser.forget_eq_of_values h)
    (Text.byteSize text.toList) (Text.byteSize text'.toList)
  rw [Query.parse, Query.parse, Parser.parseBytes, Parser.parseBytes, hlex, hlex']
  dsimp only
  generalize Parser.parseLexemes _ lexemes = read at hparsed ⊢
  generalize Parser.parseLexemes _ lexemes' = read' at hparsed ⊢
  cases hparsed with
  | error h => exact .error h
  | ok h =>
    refine .ok ?_
    rw [unplaced_map, unplaced_map, ← unplaced_map Parser.nowhere, h, unplaced_map]

end EventQuery
