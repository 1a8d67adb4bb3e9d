import EventQuery.Proofs.Dataset.Rendering
import EventQuery.Proofs.Sql.Recovery

/-! Different queries are never written alike. The expressions of a dataset's query are of a few
kinds, for which the text of a query determines it: two lowered datasets with the same text have the
same query. -/

namespace EventQuery

open Sql

namespace Emission

variable {b : BaseEvent} {j : JoinedEvent}

/-! ## The expressions of a dataset -/

theorem isOperand_ofTable (table name : String) : (Expr.ofTable table name).IsOperand :=
  .column table name

theorem isOperand_integer (n : Int) : (Expr.integer n).IsOperand := .literal rfl

theorem forall_isOperand_singleton {table name : String} :
    ∀ e ∈ [Expr.ofTable table name], e.IsOperand :=
  List.forall_mem_singleton.mpr (isOperand_ofTable _ _)

/-- A function is written in capitals, so it is not changed by writing; none is the word that ends a
list of columns, where the reading would stop. -/
theorem upper_of_mem_functions :
    ∀ function ∈ functions, Text.upper function = function ∧ function ≠ "FROM" := by
  decide +kernel

theorem isCall {function : String} (hf : function ∈ functions) {args : List Expr} (distinct : Bool)
    (hargs : ∀ e ∈ args, e.IsOperand) : (Expr.call function args distinct).IsCall :=
  .call distinct (upper_of_mem_functions _ hf).1 (upper_of_mem_functions _ hf).2 hargs

/-- Every folding function of a column is a call. -/
theorem isCall_fold (f : Aggregate) (table name : String) :
    (fold f (.ofTable table name)).IsCall := by
  cases f <;> exact isCall (by decide) _ forall_isOperand_singleton

theorem isWindow {function : Expr} (hf : function.IsCall) (keys key : String)
    {order : List (Expr × Option Direction)} (ho : ∀ p ∈ order, p.1.IsOperand)
    (frame : Option Frame) : (Expr.overWindow function [.ofTable keys key] order frame).IsWindow :=
  .window _ hf forall_isOperand_singleton ho

theorem isOperand_timeOrder (table timestamp : String) (selector : Selector) :
    ∀ p ∈ timeOrder table timestamp selector, p.1.IsOperand := by
  cases selector <;> exact List.forall_mem_singleton.mpr (isOperand_ofTable _ _)

theorem isWindow_rowNumber (keys key table timestamp : String) (selector : Selector) :
    (Expr.overWindow .rowNumber [.ofTable keys key] (timeOrder table timestamp selector)
      none).IsWindow :=
  isWindow (isCall (by decide) _ (List.forall_mem_nil _)) _ _ (isOperand_timeOrder _ _ _) _

theorem isWindow_positionalWindow {function physical : String}
    (hf : function ∈ functions) :
    (positionalWindow b j (.apply function [.ofTable joined physical])).IsWindow :=
  isWindow (isCall hf _ forall_isOperand_singleton) _ _ (isOperand_timeOrder _ _ _) _

/-- The condition of a join is a chain of comparisons of columns: an equality for each key, the
order of the times last. -/
theorem isCondition_joinCondition : (joinCondition b j).IsCondition := by
  unfold joinCondition
  induction j.keys with
  | nil => exact .compare _ (isOperand_ofTable _ _) (isOperand_ofTable _ _)
  | cons key keys ih => exact .and _ (isOperand_ofTable _ _) (isOperand_ofTable _ _) ih

theorem isOutput_ofTable (table name : String) : (Expr.ofTable table name).IsOutput :=
  .inl (.inr (isOperand_ofTable table name))

theorem isOutput_star (table : String) : (Expr.star (some table)).IsOutput :=
  .inl (.inl (.star table))

/-! ## The named queries -/

theorem isPlain_rankedBase : (rankedBase b).IsPlain where
  select := by
    simp only [rankedBase, item, List.forall_mem_cons]
    exact ⟨isOutput_star _, .inr (.inr (isWindow_rowNumber _ _ _ _ _)), List.forall_mem_nil _⟩
  source := ⟨_, rfl, parts_ofName _⟩
  joins := nofun
  condition := nofun
  groups := nofun

theorem isPlain_rankOne (name : String) : (rankOne name).IsPlain where
  select := List.forall_mem_singleton.mpr (isOutput_star _)
  source := ⟨_, rfl, parts_ofName _⟩
  joins := nofun
  condition := by
    rintro e ⟨rfl⟩
    exact .compare _ (isOperand_ofTable _ _) (isOperand_integer 1)
  groups := nofun

/-- The only literal that is not written by the emission itself is that of the filter. -/
theorem isPlain_matchingRows {select : List SelectItem}
    (hs : ∀ item ∈ select, item.expr.IsOutput)
    (hf : ∀ f ∈ j.filter, f.literal.isFinite = true) : (matchingRows b j select).IsPlain where
  select := hs
  source := ⟨_, rfl, parts_ofName _⟩
  joins := List.forall_mem_singleton.mpr ⟨parts_ofName _, isCondition_joinCondition⟩
  condition := by
    intro e he
    obtain ⟨f, hmem, rfl⟩ := Option.map_eq_some_iff.mp he
    exact .compare _ (isOperand_ofTable _ _) (.literal (hf f hmem))
  groups := nofun

/-- Every expression that a joined query selects is of a kind that is recovered. -/
theorem isOutput_of_isMatched {e : Expr} (he : IsMatched b j e) : e.IsOutput := by
  cases he with
  | key | plain => exact isOutput_ofTable _ _
  | positional _ hf =>
    rcases List.mem_pair.mp hf with rfl | rfl <;>
      exact .inr (.inr (isWindow_positionalWindow (by decide)))
  | folded f => exact .inr (.inr (isWindow (isCall_fold f _ _) _ _ (List.forall_mem_nil _) _))
  | rank => exact .inr (.inr (isWindow_rowNumber _ _ _ _ _))

theorem isPlain_innerQuery (hf : ∀ f ∈ j.filter, f.literal.isFinite = true) :
    (innerQuery b j).IsPlain := by
  obtain ⟨select, hquery, hselect⟩ := exists_innerQuery_eq b j
  rw [hquery]
  refine isPlain_matchingRows (fun x hx => ?_) hf
  obtain ⟨e, label, rfl, he⟩ := hselect x hx
  exact isOutput_of_isMatched he

theorem isPlain_grouped (rows : String) : (grouped rows j).IsPlain := by
  have hgroups : ∀ e ∈ (grouped rows j).groups, e.IsOperand := by
    intro e he
    obtain ⟨column, -, rfl⟩ := exists_of_mem_groups he
    exact isOperand_ofTable _ _
  refine ⟨fun x hx => ?_, ⟨_, rfl, parts_ofName _⟩, nofun, nofun, hgroups⟩
  rcases mem_groups_or_exists_fold hx with he | ⟨f, column, -, he⟩
  · exact .inl (.inr (hgroups _ he))
  · rw [he]
    exact .inr (.inl (isCall_fold f _ _))

/-! ## The whole query -/

/-- The whole query, without the named ones, selects columns of tables and coalesced counts. -/
theorem isPlain_query (d : Dataset) : (query d).IsPlain where
  select := by
    intro x hx
    obtain ⟨e, label, rfl, he⟩ := exists_of_mem_results hx
    cases he with
    | base | plain => exact isOutput_ofTable _ _
    | count =>
      refine .inr (.inl (isCall (by decide) _ ?_))
      rw [List.forall_mem_cons, List.forall_mem_singleton]
      exact ⟨isOperand_ofTable _ _, isOperand_integer 0⟩
  source := ⟨_, rfl, parts_ofName _⟩
  joins := List.forall_mem_map.mpr fun _ _ =>
    ⟨parts_ofName _, .compare _ (isOperand_ofTable _ _) (isOperand_ofTable _ _)⟩
  condition := nofun
  groups := nofun

end Emission

/-- With finite literals, the query of a dataset is of the class that its text determines. -/
theorem Dataset.isRecoverable_toQuery {d : Dataset} (h : d.LiteralsFinite) :
    d.toQuery.IsRecoverable where
  plain := Emission.isPlain_query d
  ctes := Emission.forall_ctes (P := fun q => q.ctes = [] ∧ q.IsPlain)
    ⟨rfl, Emission.isPlain_rankedBase⟩ (fun name => ⟨rfl, Emission.isPlain_rankOne name⟩)
    (fun j hj => ⟨Emission.ctes_innerQuery, Emission.isPlain_innerQuery (h j hj)⟩)
    fun rows _ _ => ⟨rfl, Emission.isPlain_grouped rows⟩

/-- Both layouts read as the lexemes of the query. -/
theorem Dataset.lexemes?_toSql {d : Dataset} (h : d.LiteralsFinite) (layout : Layout) :
    Reader.lexemes? (d.toSql layout).toList = some (lexemes d.toQuery.tokens) := by
  rw [Dataset.toSql, Sql.Query.toSql, render, String.toList_ofList]
  exact lexemes?_renderAfter d.toQuery.separated (Dataset.readable_tokens h) layout none

/-- **Different queries are never written alike**, in whatever layout each of them is. -/
theorem toQuery_eq_of_toSql_eq {ρ σ : Type} {catalog catalog' : Catalog} {q : Query ρ}
    {q' : Query σ} {d d' : Dataset} (h : q.toDataset catalog = .ok d)
    (h' : q'.toDataset catalog' = .ok d') {layout layout' : Layout}
    (htext : d.toSql layout = d'.toSql layout') : d.toQuery = d'.toQuery := by
  have hfinite := Query.literalsFinite_of_toDataset h
  have hfinite' := Query.literalsFinite_of_toDataset h'
  have hread := Dataset.lexemes?_toSql hfinite layout
  rw [htext, Dataset.lexemes?_toSql hfinite' layout'] at hread
  exact Sql.Query.eq_of_lexemes_eq (Dataset.isRecoverable_toQuery hfinite)
    (Dataset.isRecoverable_toQuery hfinite') (Option.some.inj hread).symm

/-- A note by another name, whose body has another name too. -/
def memoEvent : Event :=
  { noteEvent with
    name := "memo"
    attributes := [⟨"contents", .string, "the 'body'\")"⟩] }

def memosBefore : Query Unit where
  select := ⟨⟨.last, ()⟩, ⟨"memo", ()⟩, [.reference ⟨"contents", ()⟩ ⟨"body", ()⟩ ()], ()⟩
  joins := [⟨⟨.before, ()⟩, ⟨.last, ()⟩, ⟨"memo", ()⟩, [],
    [.aggregation ⟨.count, ()⟩ ⟨"id\"", ()⟩ ⟨"notes", ()⟩ ()],
    some ⟨⟨"contents", ()⟩, ⟨.eq, ()⟩, ⟨.text "') --\n\"(", ()⟩, ()⟩, ()⟩]
  place := ()

def memosDataset : Dataset where
  base := ⟨memoEvent, .last, "who (", [⟨"body", "contents", "the 'body'\")"⟩]⟩
  joins := [⟨memoEvent, .before, .last, [⟨"author", "who (", "who ("⟩],
    [⟨"notes", .aggregation .count "id\"" "id\""⟩],
    some ⟨"contents", "the 'body'\")", .eq, .text "') --\n\"("⟩⟩]

/-- The memo and the note are different datasets: the names of events and attributes are not in the
SQL. -/
theorem memos_written_as_notes :
    memosBefore.toDataset (.unchecked [memoEvent]) = .ok memosDataset ∧
      memosDataset ≠ notesDataset ∧
      memosDataset.toSql .compact = notesDataset.toSql .compact ∧
      memosDataset.toQuery = notesDataset.toQuery := by
  have hmemos : memosBefore.toDataset (.unchecked [memoEvent]) = .ok memosDataset := by
    decide +kernel
  have htext : memosDataset.toSql .compact = notesDataset.toSql .compact := rfl
  exact ⟨hmemos, by decide +kernel, htext, toQuery_eq_of_toSql_eq hmemos notes_lowered htext⟩

end EventQuery
