import EventQuery.Proofs.Sql.Evaluation

/-! When expressions and queries are not refused, rule by rule. -/

namespace EventQuery.Sql

/-- Among tables of different names, a name leaves the columns of one table. -/
theorem Scope.within_of_mem {scope : Scope} (hn : (scope.map Prod.fst).Nodup) {table : String}
    {columns : List String} (hm : (table, columns) ∈ scope) :
    scope.within (some table) = columns := by
  induction scope with
  | nil => cases hm
  | cons p scope ih =>
    rw [List.map_cons, List.nodup_cons] at hn
    rcases List.mem_cons.mp hm with rfl | hm
    · have hrest : scope.filter (·.1 = table) = [] := by
        rw [List.filter_eq_nil_iff]
        exact fun q hq he => hn.1 (List.mem_map.mpr ⟨q, hq, of_decide_eq_true he⟩)
      simp [within, hrest]
    · have hne : p.1 ≠ table := fun he => hn.1 (List.mem_map.mpr ⟨_, hm, he.symm⟩)
      simpa [within, hne] using ih hn.2 hm

theorem Scope.resolves_of_mem {scope : Scope} (hn : (scope.map Prod.fst).Nodup) {table : String}
    {columns : List String} (hm : (table, columns) ∈ scope) (hc : columns.Nodup) {column : String}
    (hmem : column ∈ columns) : scope.Resolves (some table, column) := by
  rw [Resolves, within_of_mem hn hm]
  exact List.count_eq_one_of_mem hc hmem

namespace Query

attribute [local simp] Expr.isPlain arePlain Expr.references referencesOf

variable {scope : Scope} {e f : Expr}

theorem isSoundPlain_ofTable {table column : String} (h : scope.Resolves (some table, column)) :
    isSoundPlain scope (.ofTable table column) = true := by
  simp [isSoundPlain, Expr.ofTable, h]

theorem isSoundPlain_literal (l : Literal) : isSoundPlain scope (.literal l) = true := by
  simp [isSoundPlain]

theorem isSoundPlain_binary {op : Operator} (he : isSoundPlain scope e = true)
    (hf : isSoundPlain scope f = true) : isSoundPlain scope (.binary e op f) = true := by
  simp only [isSoundPlain, Bool.and_eq_true, List.all_eq_true] at he hf ⊢
  refine ⟨by simp [he.1, hf.1], fun r hr => ?_⟩
  rw [Expr.references, List.mem_append] at hr
  exact hr.elim (he.2 r) (hf.2 r)

theorem isSoundPlain_coalesce (he : isSoundPlain scope e = true)
    (hf : isSoundPlain scope f = true) : isSoundPlain scope (.coalesce [e, f]) = true := by
  simp only [isSoundPlain, Bool.and_eq_true, List.all_eq_true] at he hf ⊢
  refine ⟨by simp [Expr.coalesce, Expr.apply, he.1, hf.1], fun r hr => ?_⟩
  simp only [Expr.coalesce, Expr.apply, Expr.references, referencesOf, List.append_nil,
    List.mem_append] at hr
  exact hr.elim (he.2 r) (hf.2 r)

theorem isSoundWindow_of_plain (he : isSoundPlain scope e = true) :
    isSoundWindow scope e = true := by
  cases e with
  | window => simp [isSoundPlain] at he
  | column | star | literal | binary | call => exact he

/-- A function over a window that reads the whole of each partition. -/
theorem isSoundWindow_overWindow {function : String} {args partition : List Expr} {distinct : Bool}
    {order : List (Expr × Option Direction)} {frame : Option Frame}
    (hf : function ∈ ["ROW_NUMBER", "FIRST_VALUE", "LAST_VALUE"] ∨
      (setFunction? function distinct).isSome)
    (ha : ∀ e ∈ args, isSoundPlain scope e = true)
    (hp : ∀ e ∈ partition, isSoundPlain scope e = true)
    (ho : ∀ o ∈ order, isSoundPlain scope o.1 = true)
    (hw : frame = none ∨ frame = some .wholePartition) :
    isSoundWindow scope (.overWindow (.call function args distinct) partition order frame) =
      true := by
  simp only [Expr.overWindow, isSoundWindow, Bool.and_eq_true, List.all_eq_true, Bool.or_eq_true,
    decide_eq_true_eq]
  refine ⟨⟨⟨⟨ha, hp⟩, ho⟩, ?_⟩, hf⟩
  rcases hw with rfl | rfl <;> cases order <;> rfl

/-- A labelled item of a query without groups. -/
theorem isSoundItem_of_window {label : String} (he : isSoundWindow scope e = true) :
    isSoundItem scope [] ⟨e, some label⟩ = true := by
  cases e with
  | star t => cases he
  | column | literal | binary | call | window => exact he

theorem isSoundItem_star {table : String} (h : table ∈ scope.map Prod.fst) :
    isSoundItem scope [] ⟨.star (some table), none⟩ = true := by
  simpa [isSoundItem] using h

/-- A column that a query groups by. -/
theorem isSoundItem_of_mem_groups {groups : List Expr} {table column : String}
    {label : Option String} (he : isSoundPlain scope (.ofTable table column) = true)
    (hm : .ofTable table column ∈ groups) :
    isSoundItem scope groups ⟨.ofTable table column, label⟩ = true := by
  have hg : groups.isEmpty = false := by
    cases groups with
    | nil => cases hm
    | cons => rfl
  have hmem : ∃ e ∈ groups, (some table, column) ∈ e.references :=
    ⟨_, hm, by simp [Expr.ofTable]⟩
  show (if groups.isEmpty then _ else isSoundPlain scope (.ofTable table column) &&
    [(some table, column)].all (· ∈ groups.flatMap (·.references))) = true
  simp [hg, he, hmem]

theorem isSoundItem_of_setFunction {groups : List Expr} (hg : groups ≠ []) {function : String}
    {args : List Expr} {distinct : Bool} {label : Option String}
    (hf : (setFunction? function distinct).isSome)
    (ha : ∀ e ∈ args, isSoundPlain scope e = true) :
    isSoundItem scope groups ⟨.call function args distinct, label⟩ = true := by
  simp [isSoundItem, isSoundGroup, hg, hf, List.all_eq_true.mpr ha]

theorem isSound_iff {source : List String → List String} {ctes : Scope} {q : Query} :
    q.isSound source ctes = true ↔ (q.ctes.map Prod.fst).Nodup ∧
      ((q.scope source ctes).map Prod.fst).Nodup ∧
      areSoundJoins (·.columns source ctes)
        (q.source.toList.map fun t => (t.name, t.columns source ctes)) q.joins = true ∧
      (∀ e ∈ q.condition, isSoundPlain (q.scope source ctes) e = true) ∧
      (∀ e ∈ q.groups, isSoundPlain (q.scope source ctes) e = true) ∧
      ∀ item ∈ q.select, isSoundItem (q.scope source ctes) q.groups item = true := by
  simp only [isSound, Bool.and_eq_true, decide_eq_true_eq, List.all_eq_true, and_assoc,
    Option.all_eq_true, Option.mem_def]

/-! ## References of sound queries -/

theorem refersOnly_of_isSoundPlain (he : isSoundPlain scope e = true) :
    e.RefersOnly scope.Resolves := by
  simp only [isSoundPlain, Bool.and_eq_true, List.all_eq_true, decide_eq_true_eq] at he
  exact he.2

theorem refersOnly_of_isSoundWindow (he : isSoundWindow scope e = true) :
    e.RefersOnly scope.Resolves := by
  cases e with
  | column | star | literal | binary | call => exact refersOnly_of_isSoundPlain he
  | window function partition order frame =>
    cases function with
    | column | star | literal | binary | window => exact refersOnly_of_isSoundPlain he
    | call function args distinct =>
      simp only [isSoundWindow, Bool.and_eq_true, List.all_eq_true] at he
      obtain ⟨⟨⟨⟨hargs, hpartition⟩, horder⟩, -⟩, -⟩ := he
      refine Expr.refersOnly_window (Expr.refersOnly_call fun e he => ?_) (fun e he => ?_)
        fun o ho => ?_
      · exact refersOnly_of_isSoundPlain (hargs e he)
      · exact refersOnly_of_isSoundPlain (hpartition e he)
      · exact refersOnly_of_isSoundPlain (horder o ho)

/-- In a query without groups every item refers to one column at a time. -/
theorem refersOnly_of_isSoundItem {item : SelectItem} (hi : isSoundItem scope [] item = true) :
    item.expr.RefersOnly scope.Resolves := by
  obtain ⟨e, label⟩ := item
  cases e with
  | star => exact nofun
  | column | literal | binary | call | window =>
    refine refersOnly_of_isSoundWindow ?_
    exact hi

end Query

end EventQuery.Sql
