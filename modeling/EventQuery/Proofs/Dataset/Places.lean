import EventQuery.Catalog.Demo
import EventQuery.Compilation
import EventQuery.Proofs.Query.Places

/-! Checking and lowering do not look at places. Checking carries them into what it reports and
lowering drops them, so how a text is laid out has no part in what it is compiled to
(`compile_of_same_tokens`). -/

namespace EventQuery

open Outcome

variable {ρ σ : Type} (f : ρ → σ) {catalog : Catalog}

theorem Column.label_map (c : Column ρ) : (c.map f).label = c.label.map f := by
  cases c <;> rfl

theorem Column.input_map (c : Column ρ) : (c.map f).input = c.input.map f := by
  cases c <;> rfl

theorem Column.place_map (c : Column ρ) : (c.map f).place = f c.place := by
  cases c <;> rfl

theorem Column.isAggregation_map (c : Column ρ) : (c.map f).isAggregation = c.isAggregation := by
  cases c <;> rfl

theorem JoinClause.keys_map (j : JoinClause ρ) (event : Event) :
    (j.map f).keys event = j.keys event := by
  rw [keys, keys, map, List.isEmpty_map, List.filterMap_map]
  rfl

/-! ## Checking -/

namespace Validation

/-- A check passes or fails alike at any place; only the place in its report changes. -/
theorem failUnless_map (condition : Bool) (fault : Fault) (place : ρ) :
    failUnless condition fault (f place) =
      both (·.map f) id (failUnless condition fault place) := by
  cases condition <;> rfl

/-- A name that no event has is reported at the place the name is carried to. -/
theorem event_map (name : Located ρ String) :
    event catalog (name.map f) = both (·.map f) id (event catalog name) := by
  simp only [event, Located.map]
  cases catalog.find? name.value <;> rfl

theorem selectColumn_map (event : Event) (c : Column ρ) :
    selectColumn event (c.map f) = both (·.map f) id (selectColumn event c) := by
  simp only [selectColumn, c.label_map, c.input_map, c.place_map, c.isAggregation_map]
  refine bind_eq_both (failUnless_map f _ _ c.label.place) fun _ => ?_
  refine bind_eq_both (failUnless_map f _ _ c.place) fun _ => ?_
  exact failUnless_map f _ _ c.input.place

/-- The checks of a select clause commute with moving its places. -/
theorem select_map (s : SelectClause ρ) :
    select catalog (s.map f) = both (·.map f) id (select catalog s) := by
  refine bind_eq_both (event_map f s.event) fun event => ?_
  refine bind_eq_both (failUnless_map f _ _ s.event.place) fun _ => ?_
  exact bind_eq_both (forM_map_both (selectColumn_map f event)) fun _ => rfl

/-- The keys that a join names keep the places they are named at. -/
theorem requestedKeys_map (event : Event) (j : JoinClause ρ) :
    requestedKeys event (j.map f) =
      both (·.map f) (List.map (·.map f)) (requestedKeys event j) := by
  rw [requestedKeys, requestedKeys]
  change (if (j.entities.map (·.map f)).isEmpty then _ else _) = _
  rw [List.isEmpty_map]
  split
  · cases event.defaultEntity? <;> rfl
  · exact bind_eq_both (forM_map_both fun e => failUnless_map f _ _ e.place) fun _ => rfl

theorem keys_map (base event : Event) (j : JoinClause ρ) :
    keys base event (j.map f) = both (·.map f) id (keys base event j) := by
  refine bind_eq_both (requestedKeys_map f event j) fun requested => ?_
  refine bind_eq_both (forM_map_both fun e => failUnless_map f _ _ e.place) fun _ => ?_
  exact congrArg Except.ok (j.keys_map f event)

theorem joinColumn_map (event : Event) (c : Column ρ) :
    joinColumn event (c.map f) = both (·.map f) id (joinColumn event c) := by
  simp only [joinColumn, c.label_map, c.input_map]
  refine bind_eq_both (failUnless_map f _ _ c.label.place) fun _ => ?_
  exact failUnless_map f _ _ c.input.place

theorem groupedColumn_map (event : Event) (keys : List Entity) (c : Column ρ) :
    groupedColumn event keys (c.map f) = both (·.map f) id (groupedColumn event keys c) := by
  simp only [groupedColumn, c.label_map, c.input_map, c.place_map, c.isAggregation_map]
  exact failUnless_map f _ _ c.place

/-- The checks of a join commute with moving its places, in the order they are made. -/
theorem join_map (base : Event) (j : JoinClause ρ) :
    join catalog base (j.map f) = both (·.map f) id (join catalog base j) := by
  refine bind_eq_both (event_map f j.event) fun event => ?_
  refine bind_eq_both (keys_map f base event j) fun keys => ?_
  refine bind_eq_both (forM_map_both (joinColumn_map f event)) fun _ => ?_
  have hselector : (j.map f).selector.value = j.selector.value := rfl
  have hfilter : (j.map f).filter = j.filter.map (·.map f) := rfl
  have hcolumn (x : Filter ρ) : column event (x.map f).column =
      both (·.map f) id (column event x.column) := failUnless_map f _ _ x.column.place
  by_cases ho : j.selector.value = .omitted
  · simp only [hselector, hfilter, if_pos ho, id]
    refine bind_eq_both (forM_map_both (groupedColumn_map f event keys)) fun _ => ?_
    cases j.filter with
    | none => rfl
    | some x => exact hcolumn x
  · simp only [hselector, hfilter, if_neg ho, id]
    cases j.filter with
    | none => rfl
    | some x => exact hcolumn x

end Validation

/-- Validation commutes with moving the places of a query: the same fault is reported, where its
node has gone. -/
theorem Query.validate_map (q : Query ρ) :
    (q.map f).validate catalog = both (·.map f) id (q.validate catalog) :=
  bind_eq_both (Validation.select_map f q.select) fun base =>
    forM_map_both (Validation.join_map f base)

/-! ## Lowering -/

namespace Lowering

theorem baseColumn_map (event : Event) (c : Column ρ) :
    baseColumn event (c.map f) = baseColumn event c := by
  cases c <;> rfl

theorem base_map (s : SelectClause ρ) : base catalog (s.map f) = base catalog s := by
  have hcolumns (event : Event) :
      (s.columns.map (·.map f)).mapM (baseColumn event) = s.columns.mapM (baseColumn event) :=
    mapM_map_eq (baseColumn_map f event)
  simp only [base, SelectClause.map, Located.map, hcolumns]

theorem joinedColumn_map (event : Event) (keys : List Entity) (selector : Selector)
    (c : Column ρ) : joinedColumn event keys selector (c.map f) =
      joinedColumn event keys selector c := by
  cases c <;> rfl

theorem join_map (base : Event) (j : JoinClause ρ) :
    join catalog base (j.map f) = join catalog base j := by
  have hfilter (event : Event) :
      (j.map f).filter.mapM (filter event) = j.filter.mapM (filter event) := by
    rw [JoinClause.map]
    cases j.filter <;> rfl
  refine bind_congr fun event => ?_
  rw [j.keys_map, hfilter]
  refine congrArg₂ Bind.bind (forM_map_eq fun _ => rfl) (funext fun _ => ?_)
  dsimp only
  split
  · rfl
  · refine bind_congr fun keys => ?_
    exact congrArg₂ Bind.bind (mapM_map_eq (joinedColumn_map f event _ _)) rfl

end Lowering

/-- Lowering gives the same dataset wherever the nodes of the query are. -/
theorem Query.toDataset_map (q : Query ρ) :
    (q.map f).toDataset catalog = q.toDataset catalog := by
  refine congrArg₂ Bind.bind (Lowering.base_map f q.select) (funext fun base => ?_)
  exact congrArg₂ Bind.bind (mapM_map_eq (Lowering.join_map f base.event)) rfl

/-! ## Texts of the same tokens -/

section
variable {q : Query ρ} {q' : Query σ} (h : q.unplaced = q'.unplaced)
include h

/-- Queries that differ in places alone both pass or both fail with the same fault. -/
theorem Query.validate_alike : Alike (fun e e' => e.value = e'.value) (fun _ _ => True)
    (q.validate catalog) (q'.validate catalog) := by
  have hboth : both (·.map fun _ => ()) id (q.validate catalog) =
      both (·.map fun _ => ()) id (q'.validate catalog) := by
    rw [← validate_map, ← validate_map]
    exact congrArg (validate catalog) h
  exact (alike_of_both_eq hboth).imp (fun he => (Located.mk.inj he).1) fun _ => trivial

theorem Query.toDataset_eq_of_unplaced : q.toDataset catalog = q'.toDataset catalog := by
  rw [← q.toDataset_map fun _ => (), ← q'.toDataset_map fun _ => ()]
  exact congrArg (toDataset catalog) h

end

/-- Errors of the same kind, for the same reason. -/
inductive CompileError.Same : CompileError → CompileError → Prop
  | malformed {e e' : SyntaxError Span} : e.value = e'.value → Same (.malformed e) (.malformed e')
  | invalid {e e' : Located Span Fault} : e.value = e'.value → Same (.invalid e) (.invalid e')
  | lowering {fault : Fault} : Same (.lowering fault) (.lowering fault)

theorem CompileError.Same.message_eq {e e' : CompileError} (h : e.Same e') :
    e.message = e'.message := by
  cases h with
  | malformed h => exact congrArg (fun fault => "Syntax error: " ++ fault.message) h
  | invalid h => exact congrArg (fun fault => "Validation error: " ++ fault.message) h
  | lowering => rfl

/-- If two texts are parsed alike, they are compiled alike. -/
theorem compile_alike {layout : Sql.Layout} {text text' : String}
    (h : Alike (fun e e' => e.value = e'.value) (fun q q' => q.unplaced = q'.unplaced)
      (Query.parse text) (Query.parse text')) :
    Alike CompileError.Same (· = ·) (compile catalog layout text)
      (compile catalog layout text') := by
  have hdataset : Alike CompileError.Same (· = ·) (compileDataset catalog text)
      (compileDataset catalog text') := by
    refine (h.mapError CompileError.Same.malformed).bind fun hq => ?_
    refine ((Query.validate_alike hq).mapError CompileError.Same.invalid).bind fun _ => ?_
    rw [Query.toDataset_eq_of_unplaced hq]
    exact Alike.refl.mapError fun he => he ▸ .lowering
  exact hdataset.bind fun hd => hd ▸ .ok rfl

/-- **How a text is laid out is immaterial.** Texts of the same tokens, whatever stands between
these and however they are written, are read as the same query or refused with the same message. The
queries then fit a catalog or are refused with the same message, and the texts are compiled to the
same dataset and the same SQL or are refused for the same reason. -/
theorem compile_of_same_tokens {text text' : String} {lexemes lexemes' : List Lexeme}
    (hlex : Source.lex text.toList = .ok lexemes) (hlex' : Source.lex text'.toList = .ok lexemes')
    (h : lexemes.map (·.value) = lexemes'.map (·.value)) (catalog : Catalog)
    (layout : Sql.Layout) :
    Alike (fun e e' => e.value.message = e'.value.message)
      (fun q q' => q.unplaced = q'.unplaced ∧
        Alike (fun e e' => e.value.message = e'.value.message) (fun _ _ => True)
          (q.validate catalog) (q'.validate catalog))
      (Query.parse text) (Query.parse text') ∧
    Alike (fun e e' => e.Same e' ∧ e.message = e'.message) (· = ·)
      (compile catalog layout text) (compile catalog layout text') := by
  have hparse := Query.parse_alike hlex hlex' h
  constructor
  · refine hparse.imp (congrArg SyntaxFault.message) fun hq => ⟨hq, ?_⟩
    exact (Query.validate_alike hq).imp (congrArg Fault.message) id
  · exact (compile_alike hparse).imp (fun he => ⟨he, he.message_eq⟩) id

def giftsOnOneLine : String :=
  "select first user_signed_up(plan as plan) " ++
  "join after order_placed(count(order_id) as gifts filter(is_gift != 'no'))"

/-- The same with comments, line feeds, other cases, other quotes and the other sign. -/
def giftsOnManyLines : String :=
  "SELECT First user_signed_up (\n\tplan AS plan) -- the plan\n" ++
  "JOIN after order_placed (\n  count ( order_id ) As gifts\n  filter (is_gift <> \"no\"))\n"

def giftTokens : List Token :=
  [.keyword .select, .keyword .first, .ident "user_signed_up", .lparen, .ident "plan",
    .keyword .asName, .ident "plan", .rparen, .keyword .join, .keyword .after,
    .ident "order_placed", .lparen, .ident "count", .lparen, .ident "order_id", .rparen,
    .keyword .asName, .ident "gifts", .keyword .filter, .lparen, .ident "is_gift",
    .comparison .ne, .quoted "no", .rparen, .rparen]

/-- The same tokens on one line and on many, with a comment between them. -/
theorem gifts_compiled_alike :
    (Source.lex giftsOnOneLine.toList).map (·.map (·.value)) = .ok giftTokens ∧
      (Source.lex giftsOnManyLines.toList).map (·.map (·.value)) = .ok giftTokens ∧
      ∃ x, compile .demo .pretty giftsOnOneLine = .ok x ∧
        compile .demo .pretty giftsOnManyLines = .ok x := by
  have hone : (Source.lex giftsOnOneLine.toList).map (·.map (·.value)) = .ok giftTokens := by
    decide +kernel
  have hmany : (Source.lex giftsOnManyLines.toList).map (·.map (·.value)) = .ok giftTokens := by
    decide +kernel
  obtain ⟨lexemes, hlex, hvalues⟩ := map_eq_ok_iff.mp hone
  obtain ⟨lexemes', hlex', hvalues'⟩ := map_eq_ok_iff.mp hmany
  have halike := (compile_of_same_tokens hlex hlex' (hvalues.trans hvalues'.symm) .demo .pretty).2
  have hok : (compileDataset .demo giftsOnOneLine).toBool = true := by
    decide +kernel
  cases hdataset : compileDataset .demo giftsOnOneLine with
  | error e =>
    rw [hdataset] at hok
    cases hok
  | ok d =>
    have hcompile : compile .demo .pretty giftsOnOneLine = .ok (d, d.toSql .pretty) := by
      rw [compile, hdataset]
      rfl
    obtain ⟨x, hx, rfl⟩ := halike.exists_eq_ok hcompile
    exact ⟨hone, hmany, _, hcompile, hx⟩

end EventQuery
