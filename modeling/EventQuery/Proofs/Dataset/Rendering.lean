import EventQuery.Proofs.Dataset.Lowering
import EventQuery.Proofs.Dataset.Selected
import EventQuery.Proofs.Sql.Separation

/-! The SQL text of a dataset. Whatever names and texts a dataset is made of, its text reads back to
the tokens of its query in either layout: the functions are words, the tables have names, and the
only number that is not given here, the literal of a filter, is finite. -/

namespace EventQuery

open Sql Sql.Reader

namespace Emission

variable {b : BaseEvent} {j : JoinedEvent}

theorem parts_ofName (name : String) : (TableRef.ofName name).parts ≠ [] := by
  simp [TableRef.ofName, Text.split, Text.splitChars_ne_nil]

theorem readable_ofTable (table name : String) : Readable (Expr.ofTable table name).tokens :=
  readable_column _ _

theorem readable_integer (n : Int) : Readable (Expr.integer n).tokens := readable_literal rfl

/-- The functions that the query of a dataset calls. -/
def functions : List String :=
  ["COUNT", "SUM", "AVG", "MIN", "MAX", "COALESCE", "ROW_NUMBER", "FIRST_VALUE", "LAST_VALUE"]

/-- No function needs quotes. -/
theorem isWord_upper : ∀ function ∈ functions, IsWord (Text.upper function).toList := by
  decide +kernel

theorem readable_function {function : String} (hf : function ∈ functions) {args : List Expr}
    {distinct : Bool} (hargs : ∀ e ∈ args, Readable e.tokens) :
    Readable (Expr.call function args distinct).tokens :=
  readable_call (isWord_upper function hf) hargs

theorem readable_fold (f : Aggregate) {e : Expr} (h : Readable e.tokens) :
    Readable (fold f e).tokens := by
  have hargs : ∀ x ∈ [e], Readable x.tokens := List.forall_mem_singleton.mpr h
  cases f <;> exact readable_function (by decide) hargs

theorem readable_overWindow {function : Expr} {partition : List Expr}
    {order : List (Expr × Option Direction)} {frame : Option Frame}
    (hf : Readable function.tokens) (hp : ∀ e ∈ partition, Readable e.tokens)
    (ho : ∀ p ∈ order, Readable p.1.tokens) :
    Readable (Expr.overWindow function partition order frame).tokens := readable_window hf hp ho

theorem readable_timeOrder (table timestamp : String) (selector : Selector) :
    ∀ p ∈ timeOrder table timestamp selector, Readable p.1.tokens := by
  cases selector <;> exact List.forall_mem_singleton.mpr (readable_ofTable _ _)

theorem readable_rowNumber (keys key table timestamp : String) (selector : Selector) :
    Readable (Expr.overWindow .rowNumber [.ofTable keys key]
      (timeOrder table timestamp selector) none).tokens :=
  readable_overWindow (readable_function (by decide) nofun)
    (List.forall_mem_singleton.mpr (readable_ofTable _ _)) (readable_timeOrder _ _ _)

/-- Whatever the keys are called, their names are in quotes. -/
theorem readable_joinCondition : Readable (joinCondition b j).tokens := by
  unfold joinCondition
  induction j.keys with
  | nil => exact readable_binary (readable_ofTable _ _) (readable_ofTable _ _)
  | cons key keys ih =>
    exact readable_binary (readable_binary (readable_ofTable _ _) (readable_ofTable _ _)) ih

theorem readable_positionalWindow {function physical : String} (hf : function ∈ functions) :
    Readable (positionalWindow b j (.apply function [.ofTable joined physical])).tokens := by
  have harg : ∀ e ∈ [Expr.ofTable joined physical], Readable e.tokens :=
    List.forall_mem_singleton.mpr (readable_ofTable _ _)
  exact readable_overWindow (readable_function hf harg)
    (List.forall_mem_singleton.mpr (readable_ofTable _ _)) (readable_timeOrder _ _ _)

/-! ## The named queries -/

theorem isReadable_rankedBase : (rankedBase b).IsReadable where
  select := by
    simp only [rankedBase, item, List.forall_mem_cons]
    exact ⟨readable_star _, readable_rowNumber _ _ _ _ _, nofun⟩
  source := by
    rintro table ⟨rfl⟩
    exact parts_ofName _
  joins := nofun
  condition := nofun
  groups := nofun

theorem isReadable_rankOne (name : String) : (rankOne name).IsReadable where
  select := List.forall_mem_singleton.mpr (readable_star _)
  source := by
    rintro table ⟨rfl⟩
    exact parts_ofName _
  joins := nofun
  condition := by
    rintro e ⟨rfl⟩
    exact readable_binary (readable_ofTable _ _) (readable_integer 1)
  groups := nofun

/-- The literal of the filter is the only number that comes from outside. -/
theorem isReadable_matchingRows {select : List SelectItem}
    (hs : ∀ item ∈ select, Readable item.expr.tokens)
    (hf : ∀ f ∈ j.filter, f.literal.isFinite = true) : (matchingRows b j select).IsReadable where
  select := hs
  source := by
    rintro table ⟨rfl⟩
    exact parts_ofName _
  joins := List.forall_mem_singleton.mpr ⟨parts_ofName _, readable_joinCondition⟩
  condition := by
    intro e he
    obtain ⟨f, hmem, rfl⟩ := Option.map_eq_some_iff.mp he
    exact readable_binary (readable_ofTable _ _) (readable_literal (hf f hmem))
  groups := nofun

/-- One case for each kind of expression that a joined query selects. -/
theorem readable_of_isMatched {e : Expr} (he : IsMatched b j e) : Readable e.tokens := by
  cases he with
  | key | plain => exact readable_ofTable _ _
  | positional _ hf =>
    rcases List.mem_pair.mp hf with rfl | rfl <;>
      exact readable_positionalWindow (by decide)
  | folded f =>
    exact readable_overWindow (readable_fold f (readable_ofTable _ _))
      (List.forall_mem_singleton.mpr (readable_ofTable _ _)) nofun
  | rank => exact readable_rowNumber _ _ _ _ _

theorem isReadable_innerQuery (hf : ∀ f ∈ j.filter, f.literal.isFinite = true) :
    (innerQuery b j).IsReadable := by
  obtain ⟨select, hquery, hselect⟩ := exists_innerQuery_eq b j
  rw [hquery]
  refine isReadable_matchingRows (fun x hx => ?_) hf
  obtain ⟨e, label, rfl, he⟩ := hselect x hx
  exact readable_of_isMatched he

theorem isReadable_grouped (rows : String) : (grouped rows j).IsReadable := by
  have hgroups : ∀ e ∈ (grouped rows j).groups, Readable e.tokens := by
    intro e he
    obtain ⟨column, -, rfl⟩ := exists_of_mem_groups he
    exact readable_ofTable _ _
  refine ⟨fun x hx => ?_, ?_, nofun, nofun, hgroups⟩
  · rcases mem_groups_or_exists_fold hx with he | ⟨f, column, -, he⟩
    · exact hgroups _ he
    · rw [he]
      exact readable_fold f (readable_ofTable _ _)
  · rintro table ⟨rfl⟩
    exact parts_ofName _

/-! ## The whole query -/

/-- The final query and its joins are readable, with no condition on the dataset. -/
theorem isReadable_query (d : Dataset) : (query d).IsReadable where
  select := by
    intro x hx
    obtain ⟨e, label, rfl, he⟩ := exists_of_mem_results hx
    cases he with
    | base | plain => exact readable_ofTable _ _
    | count =>
      refine readable_function (by decide) ?_
      rw [List.forall_mem_cons, List.forall_mem_singleton]
      exact ⟨readable_ofTable _ _, readable_integer 0⟩
  source := by
    rintro table ⟨rfl⟩
    exact parts_ofName _
  joins := List.forall_mem_map.mpr fun _ _ =>
    ⟨parts_ofName _, readable_binary (readable_ofTable _ _) (readable_ofTable _ _)⟩
  condition := nofun
  groups := nofun

end Emission

/-- The filters of a dataset compare with finite literals. -/
def Dataset.LiteralsFinite (d : Dataset) : Prop :=
  ∀ j ∈ d.joins, ∀ f ∈ j.filter, f.literal.isFinite = true

/-- All tokens of the query of a dataset can be read back once its filters have finite literals. -/
theorem Dataset.readable_tokens {d : Dataset} (h : d.LiteralsFinite) :
    Readable d.toQuery.tokens := by
  refine (Emission.isReadable_query d).tokens
    (Emission.forall_ctes (P := fun q => Readable q.tokens) ?_ ?_ ?_ ?_)
  · exact Emission.isReadable_rankedBase.tokens nofun
  · exact fun name => (Emission.isReadable_rankOne name).tokens nofun
  · intro j hj
    refine (Emission.isReadable_innerQuery (h j hj)).tokens ?_
    rw [Emission.ctes_innerQuery]
    nofun
  · exact fun rows j _ => (Emission.isReadable_grouped rows).tokens nofun

/-- Lowering refuses a filter whose literal is not finite. -/
theorem Query.literalsFinite_of_toDataset {ρ : Type} {catalog : Catalog} {q : Query ρ} {d : Dataset}
    (h : q.toDataset catalog = .ok d) : d.LiteralsFinite := by
  intro r hr f hf
  obtain ⟨j, -, hj⟩ := exists_join_of_toDataset h hr
  obtain ⟨-, -, -, -, -, -, -, hfilter⟩ := Lowering.join_eq_ok_iff.mp hj
  rw [Option.mem_def.mp hf] at hfilter
  generalize j.filter = written at hfilter
  obtain hx | _ := hfilter
  obtain ⟨hl, -, -, -, he⟩ := Lowering.filter_eq_ok_iff.mp hx
  rwa [he]

/-- **The text of a dataset is its query**, in either layout: it reads back to the tokens of the
query, what stands between quotes has no part in what stands outside of them, and on one line there
is no line break outside of quotes. -/
theorem toSql_reads_back {ρ : Type} {catalog : Catalog} {q : Query ρ} {d : Dataset}
    (h : q.toDataset catalog = .ok d) :
    (∀ layout, lexemes? (d.toSql layout).toList =
      some (d.toQuery.tokens.flatMap Sql.Token.lexemes)) ∧
    (∀ layout, unquoted none (d.toSql layout).toList =
      unquoted none (render layout (d.toQuery.tokens.map Sql.Token.emptied)).toList) ∧
    '\n' ∉ unquoted none (d.toSql .compact).toList := by
  have hreadable := Dataset.readable_tokens (Query.literalsFinite_of_toDataset h)
  have htext (layout : Layout) (ts : List Sql.Token) :
      (render layout ts).toList = renderAfter layout none ts := String.toList_ofList
  simp only [Dataset.toSql, Sql.Query.toSql, htext]
  refine ⟨fun layout => ?_, fun layout => ?_, ?_⟩
  · exact lexemes?_renderAfter d.toQuery.separated hreadable layout none
  · exact unquoted_renderAfter_emptied hreadable layout none
  · exact newline_notMem_unquoted hreadable none

/-! ## Names with quotes, parentheses and line breaks -/

def noteEvent : Event :=
  ⟨"note", "id\"", "at\n", [⟨"author", "who (", true⟩], [⟨"body", .string, "the 'body'\")"⟩],
    "raw\"(.\nnotes'"⟩

/-- The last note of an author, and the last of those before it that have a certain body. -/
def notesBefore : Query Unit where
  select := ⟨⟨.last, ()⟩, ⟨"note", ()⟩, [.reference ⟨"body", ()⟩ ⟨"body", ()⟩ ()], ()⟩
  joins := [⟨⟨.before, ()⟩, ⟨.last, ()⟩, ⟨"note", ()⟩, [],
    [.aggregation ⟨.count, ()⟩ ⟨"id\"", ()⟩ ⟨"notes", ()⟩ ()],
    some ⟨⟨"body", ()⟩, ⟨.eq, ()⟩, ⟨.text "') --\n\"(", ()⟩, ()⟩, ()⟩]
  place := ()

def notesDataset : Dataset where
  base := ⟨noteEvent, .last, "who (", [⟨"body", "body", "the 'body'\")"⟩]⟩
  joins := [⟨noteEvent, .before, .last, [⟨"author", "who (", "who ("⟩],
    [⟨"notes", .aggregation .count "id\"" "id\""⟩],
    some ⟨"body", "the 'body'\")", .eq, .text "') --\n\"("⟩⟩]

theorem notes_lowered :
    notesBefore.toDataset (.unchecked [noteEvent]) = .ok notesDataset := by decide +kernel

/-- The names have quotes, parentheses, full stops and line breaks in them. -/
theorem notesDataset_reads_back :
    (∀ layout, lexemes? (notesDataset.toSql layout).toList =
      some (notesDataset.toQuery.tokens.flatMap Sql.Token.lexemes)) ∧
    (∀ layout, unquoted none (notesDataset.toSql layout).toList =
      unquoted none (render layout (notesDataset.toQuery.tokens.map Sql.Token.emptied)).toList) ∧
    '\n' ∉ unquoted none (notesDataset.toSql .compact).toList :=
  toSql_reads_back notes_lowered

end EventQuery
