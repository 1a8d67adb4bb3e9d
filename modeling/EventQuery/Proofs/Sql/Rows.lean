import EventQuery.Proofs.Sql.Evaluation
import Mathlib.Data.List.Nodup

/-! Facts about the parts of an evaluation: what a row, a binding and a list of named queries hold
under a name, and the rows of a select list whose items do not depend on the place of a row. -/

namespace EventQuery.Sql

/-! ## Values in rows -/

/-- Under different labels each cell is found. -/
theorem lookup_map {α β : Type} {cells : List α} {label : α → String} {v : α → β}
    (hn : (cells.map label).Nodup) {c : α} (hc : c ∈ cells) :
    (cells.map fun c => (label c, v c)).lookup (label c) = some (v c) := by
  induction cells with
  | nil => cases hc
  | cons x cells ih =>
    rw [List.map_cons, List.nodup_cons] at hn
    rw [List.map_cons]
    rcases List.mem_cons.mp hc with rfl | hc
    · exact List.lookup_cons_self
    · have hne : label c ≠ label x := fun e => hn.1 (e ▸ List.mem_map_of_mem hc)
      rw [List.lookup_cons, beq_false_of_ne hne, ih hn.2 hc]

/-- There is nothing under a name that is not there. -/
theorem lookup_eq_none {α : Type} {cells : List (String × α)} {name : String}
    (h : name ∉ cells.map Prod.fst) : cells.lookup name = none := by
  rw [List.lookup_eq_none_iff]
  exact fun p hp => bne_iff_ne.mpr fun e => h (e ▸ List.mem_map_of_mem hp)

namespace Row

theorem value_cons_self {r : Row} {column : String} {v : Value} :
    Row.value ((column, v) :: r) column = v := by
  rw [value, List.lookup_cons_self, Option.getD_some]

/-- A cell under another name is passed over. -/
theorem value_cons_of_ne {r : Row} {column name : String} {v : Value} (h : column ≠ name) :
    Row.value ((name, v) :: r) column = r.value column := by
  rw [value, List.lookup_cons, beq_false_of_ne h, value]

theorem value_append_of_notMem {r s : Row} {column : String} (h : column ∉ s.map Prod.fst) :
    Row.value (r ++ s) column = r.value column := by
  rw [value, List.lookup_append, lookup_eq_none h, Option.or_none, value]

theorem value_append_of_notMem_left {r s : Row} {column : String} (h : column ∉ r.map Prod.fst) :
    Row.value (r ++ s) column = s.value column := by
  rw [value, List.lookup_append, lookup_eq_none h, Option.none_or, value]

/-- A row that is made from a list has, under the label of a member, what was made of it. -/
theorem value_map {α : Type} {cells : List α} {label : α → String} {v : α → Value}
    (hn : (cells.map label).Nodup) {c : α} (hc : c ∈ cells) :
    Row.value (cells.map fun c => (label c, v c)) (label c) = v c := by
  rw [value, lookup_map hn hc, Option.getD_some]

theorem value_nulls (columns : List String) (column : String) :
    Row.value (columns.map fun c => (c, .null)) column = .null := by
  induction columns with
  | nil => rfl
  | cons c columns ih =>
    rw [List.map_cons]
    by_cases h : column = c
    · rw [h, value_cons_self]
    · rw [value_cons_of_ne h, ih]

end Row

/-! ## Columns of tables -/

theorem scalar_ofTable_cons {table column : String} {r : Row} {b : Binding} :
    (Expr.ofTable table column).scalar ((table, r) :: b) = r.value column := by
  simp [Expr.ofTable, Expr.scalar, Binding.value]

theorem scalar_ofTable_cons_of_ne {table name column : String} {r : Row} {b : Binding}
    (h : table ≠ name) :
    (Expr.ofTable table column).scalar ((name, r) :: b) =
      (Expr.ofTable table column).scalar b := by
  simp [Expr.ofTable, Expr.scalar, Binding.value, List.lookup_cons, beq_false_of_ne h]

/-- A column of a table is looked up in the row that the table is bound to. -/
theorem scalar_ofTable_of_lookup {table column : String} {b : Binding} {r : Row}
    (h : b.lookup table = some r) : (Expr.ofTable table column).scalar b = r.value column := by
  simp [Expr.ofTable, Expr.scalar, Binding.value, h]

/-! ## Conditions -/

/-- A conjunction is true where both parts are; unknown counts as not true. -/
theorem isTrue_and {e f : Expr} {b : Binding} :
    (e.and f).isTrue b = (e.isTrue b && f.isTrue b) := by
  rw [Bool.eq_iff_iff]
  simp only [Expr.isTrue, Expr.and, Expr.scalar, Operator.apply, decide_eq_true_eq,
    Value.and_eq_true_iff, Bool.and_eq_true]

/-- A comparison with a null is never true. -/
theorem isTrue_compare_iff {c : Comparison} {e f : Expr} {b : Binding} :
    (Expr.compare c e f).isTrue b = true ↔
      e.scalar b ≠ .null ∧ f.scalar b ≠ .null ∧ c.holds (e.scalar b) (f.scalar b) = true := by
  simp only [Expr.isTrue, Expr.compare, Expr.scalar, Operator.apply, decide_eq_true_eq,
    Comparison.apply_eq_true_iff]

/-! ## Joins -/

/-- An inner join keeps the rows for which its condition is true. -/
theorem Join.extend_inner {j : Join} (hk : j.kind = .inner) (R : Relation) (rows : List Binding) :
    j.extend R rows = rows.flatMap fun b =>
      (R.rows.filter fun r => j.condition.isTrue (b ++ [(j.table.name, r)])).map
        fun r => b ++ [(j.table.name, r)] := by
  simp only [extend, hk, List.filter_map]
  rfl

/-- A left join in which each row meets one row, or none and nulls stand beside it. -/
theorem Join.extend_left {α : Type} {j : Join} (hk : j.kind = .left) {R : Relation} {l : List α}
    {g : α → Binding} {f : α → Row}
    (h : ∀ x ∈ l,
      (R.rows.filter fun r => j.condition.isTrue (g x ++ [(j.table.name, r)])) = [f x] ∨
      (R.rows.filter fun r => j.condition.isTrue (g x ++ [(j.table.name, r)])) = [] ∧
        f x = R.columns.map fun c => (c, .null)) :
    j.extend R (l.map g) = l.map fun x => g x ++ [(j.table.name, f x)] := by
  rw [extend, List.flatMap_map]
  refine Eq.trans (List.flatMap_congr fun x hx => ?_) List.map_eq_flatMap.symm
  simp only [hk, List.filter_map]
  rcases h x hx with h | ⟨h, hf⟩
  · have h : R.rows.filter (j.condition.isTrue ∘ fun r => g x ++ [(j.table.name, r)]) = [f x] := h
    simp [h]
  · have h : R.rows.filter (j.condition.isTrue ∘ fun r => g x ++ [(j.table.name, r)]) = [] := h
    simp [h, hf]

/-! ## Named queries -/

namespace Query

variable {db : Database} {q : Query} {outer : List (String × Relation)}

theorem rows_run : (q.run db outer).rows = q.rows db (runCtes db q.ctes outer) := by
  obtain ⟨ctes, select, table, joins, condition, groups⟩ := q
  rw [run]

theorem runCtes_append (before after : List (String × Query)) (outer : List (String × Relation)) :
    runCtes db (before ++ after) outer = runCtes db after (runCtes db before outer) := by
  induction before generalizing outer with
  | nil => simp [runCtes]
  | cons p before ih => simp [runCtes, ih]

theorem lookup_runCtes_of_notMem {ctes : List (String × Query)} {name : String}
    (h : name ∉ ctes.map Prod.fst) : (runCtes db ctes outer).lookup name = outer.lookup name := by
  induction ctes generalizing outer with
  | nil => rw [runCtes]
  | cons p ctes ih =>
    rw [List.map_cons, List.mem_cons, not_or] at h
    rw [runCtes, ih h.2, List.lookup_cons, beq_false_of_ne h.1]

/-- A named query is run with those in front of it and is found under its name, if none behind it
takes the name. -/
theorem lookup_runCtes {before after : List (String × Query)} {name : String}
    (h : name ∉ after.map Prod.fst) :
    (runCtes db (before ++ (name, q) :: after) outer).lookup name =
      some (q.run db (runCtes db before outer)) := by
  rw [runCtes_append, runCtes, lookup_runCtes_of_notMem h, List.lookup_cons_self]

theorem lookup_runCtes_concat (db : Database) (before : List (String × Query)) (name : String)
    (q : Query) (outer : List (String × Relation)) :
    (runCtes db (before ++ [(name, q)]) outer).lookup name =
      some (q.run db (runCtes db before outer)) :=
  lookup_runCtes nofun

/-- The bindings of a query: the rows of its table, extended by each join in order, then
filtered. -/
theorem bindings_of_source {t : TableRef} (hs : q.source = some t) :
    q.bindings db outer =
      (q.joins.foldl (fun rows j => j.extend (j.table.relation db outer) rows)
        ((t.relation db outer).rows.map fun r => [(t.name, r)])).filter
          fun b => q.condition.all (·.isTrue b) := by
  rw [bindings, hs]

theorem rows_of_groups_eq_nil (hg : q.groups = []) :
    q.rows db outer = selectRows q.select (q.bindings db outer) := by
  rw [rows, hg, List.isEmpty_nil, if_pos rfl]

/-! ## Select lists -/

/-- The items of a select list on a row among others. -/
def cellsOf (select : List SelectItem) (rows : List Binding) (p : Placed) : Row :=
  select.flatMap (·.cells (Expr.ofWindow rows.zipIdx p) p.1)

theorem selectRows_eq {select : List SelectItem} {rows : List Binding} :
    selectRows select rows = rows.zipIdx.map (cellsOf select rows) := rfl

section
variable {α : Type} {l : List α} {g : α → Binding} {f : α → Row} {select : List SelectItem}

/-- Where the rows that pass a test can be told without their places, so can what is selected of
them. -/
theorem filter_selectRows {test : Row → Bool} {keep : α → Bool}
    (h : ∀ x ∈ l, ∀ i, (g x, i) ∈ (l.map g).zipIdx →
      test (cellsOf select (l.map g) (g x, i)) = keep x ∧
      (keep x = true → cellsOf select (l.map g) (g x, i) = f x)) :
    (selectRows select (l.map g)).filter test = (l.filter keep).map f := by
  have hplaced : ∀ p ∈ l.zipIdx, p.1 ∈ l ∧ (g p.1, p.2) ∈ (l.map g).zipIdx := by
    intro p hp
    refine ⟨List.fst_mem_of_mem_zipIdx hp, ?_⟩
    rw [List.zipIdx_map]
    exact List.mem_map_of_mem (f := Prod.map g id) hp
  rw [selectRows_eq]
  conv_lhs => rw [List.zipIdx_map, List.map_map, List.filter_map]
  conv_rhs => rw [← List.zipIdx_map_fst 0 l, List.filter_map, List.map_map]
  have htest : l.zipIdx.filter (test ∘ cellsOf select (l.map g) ∘ Prod.map g id) =
      l.zipIdx.filter (keep ∘ Prod.fst) :=
    List.filter_congr fun p hp => (h p.1 (hplaced p hp).1 p.2 (hplaced p hp).2).1
  rw [htest]
  refine List.map_congr_left fun p hp => ?_
  obtain ⟨hp, hk⟩ := List.mem_filter.mp hp
  exact (h p.1 (hplaced p hp).1 p.2 (hplaced p hp).2).2 hk

/-- If every row gives the same cells at any place, selecting is a map. -/
theorem selectRows_eq_map (h : ∀ x ∈ l, ∀ i, (g x, i) ∈ (l.map g).zipIdx →
      cellsOf select (l.map g) (g x, i) = f x) :
    selectRows select (l.map g) = l.map f := by
  have hall : (selectRows select (l.map g)).filter (fun _ => true) =
      (l.filter fun _ => true).map f :=
    filter_selectRows fun x hx i hi => ⟨rfl, fun _ => h x hx i hi⟩
  simpa using hall

end

end Query

end EventQuery.Sql
