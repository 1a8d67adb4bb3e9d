import EventQuery.Proofs.Sql.Evaluation
import Mathlib.Data.List.MinMax
import Mathlib.Data.List.Pairwise

/-! Window functions over one ordering expression. Where it tells the rows of every partition apart,
the place of a row among the others has no influence: row number one is the row that no other
comes before, and the first and last values are those on such a row. -/

namespace EventQuery.Sql

/-- One value comes before another in a direction. -/
def Direction.Before : Direction → Value → Value → Prop
  | .asc, a, b => a < b
  | .desc, a, b => b < a

instance (direction : Direction) (a b : Value) : Decidable (direction.Before a b) :=
  match direction with
  | .asc => inferInstanceAs (Decidable (a < b))
  | .desc => inferInstanceAs (Decidable (b < a))

/-- Rows of one partition differ in the value of an expression. -/
def TellsApart (e : Expr) (partition : List Expr) (rows : List Binding) : Prop :=
  rows.Pairwise fun a b => scalars a partition = scalars b partition → e.scalar a ≠ e.scalar b

/-- The rows in the partition of a row. -/
def blockOf (rows : List Binding) (partition : List Expr) (b : Binding) : List Binding :=
  rows.filter fun a => scalars a partition = scalars b partition

theorem mem_blockOf_iff {rows : List Binding} {partition : List Expr} {a b : Binding} :
    a ∈ blockOf rows partition b ↔ a ∈ rows ∧ scalars a partition = scalars b partition := by
  simp [blockOf]

theorem map_fst_filter_zipIdx {α : Type} (f : α → Bool) (l : List α) (start : Nat) :
    ((l.zipIdx start).filter fun p => f p.1).map Prod.fst = l.filter f := by
  conv_rhs => rw [← List.zipIdx_map_fst start l, List.filter_map]
  rfl

theorem map_fst_partitionOf (rows : List Binding) (partition : List Expr) (p : Placed) :
    (partitionOf rows.zipIdx partition p).map Prod.fst = blockOf rows partition p.1 :=
  map_fst_filter_zipIdx (fun a => decide (scalars a partition = scalars p.1 partition)) rows 0

theorem fst_mem_blockOf {rows : List Binding} {partition : List Expr} {p q : Placed}
    (hq : q ∈ partitionOf rows.zipIdx partition p) : q.1 ∈ blockOf rows partition p.1 := by
  rw [← map_fst_partitionOf]
  exact List.mem_map_of_mem hq

theorem exists_of_mem_blockOf {rows : List Binding} {partition : List Expr} {p : Placed}
    {b : Binding} (hb : b ∈ blockOf rows partition p.1) :
    ∃ i, (b, i) ∈ partitionOf rows.zipIdx partition p := by
  rw [← map_fst_partitionOf, List.mem_map] at hb
  obtain ⟨⟨_, i⟩, hq, rfl⟩ := hb
  exact ⟨i, hq⟩

theorem mem_partitionOf_iff {rows : List Placed} {partition : List Expr} {p q : Placed} :
    q ∈ partitionOf rows partition p ↔
      q ∈ rows ∧ scalars q.1 partition = scalars p.1 partition := by
  simp [partitionOf]

theorem precedes_iff {e : Expr} {direction : Direction} {p q : Placed} :
    precedes [(e, some direction)] p q = true ↔
      direction.Before (e.scalar p.1) (e.scalar q.1) ∨
        e.scalar p.1 = e.scalar q.1 ∧ p.2 < q.2 := by
  have hcompare : compareBy [(e, some direction)] p.1 q.1 =
      match direction with
      | .asc => compare (e.scalar p.1) (e.scalar q.1)
      | .desc => compare (e.scalar q.1) (e.scalar p.1) := by
    cases direction <;> simp [compareBy]
  unfold precedes
  rw [hcompare]
  rcases lt_trichotomy (e.scalar p.1) (e.scalar q.1) with h | h | h
  · cases direction <;>
      simp [Direction.Before, h, h.le, h.ne, compare_lt_iff_lt.mpr, compare_gt_iff_gt.mpr]
  · cases direction <;> simp [Direction.Before, h]
  · cases direction <;>
      simp [Direction.Before, h, h.le, h.ne', compare_lt_iff_lt.mpr, compare_gt_iff_gt.mpr]

/-- A row has number one when none of its partition precedes it. -/
theorem rowNumber_eq_one_iff {rows : List Placed} {partition : List Expr}
    {order : List (Expr × Option Direction)} {p : Placed} :
    Expr.ofWindow rows p (.overWindow .rowNumber partition order none) = .number 1 ↔
      ∀ q ∈ partitionOf rows partition p, ¬precedes order q p = true := by
  have hnumber : Expr.ofWindow rows p (.overWindow .rowNumber partition order none) =
      .number (1 + ((partitionOf rows partition p).filter fun q =>
        precedes order q p).length : ℕ) := rfl
  have hone : ∀ n : ℕ, Value.number (1 + n : ℕ) = .number 1 ↔ n = 0 := by
    intro n
    rw [Value.number.injEq]
    norm_cast
    omega
  rw [hnumber, hone, List.length_eq_zero_iff, List.filter_eq_nil_iff]

/-- Whatever the order tells apart, a partition has one row of number one. -/
theorem eq_of_rowNumber_eq_one {e : Expr} {direction : Direction} {partition : List Expr}
    {rows : List Binding} {p q : Placed} (hp : p ∈ rows.zipIdx) (hq : q ∈ rows.zipIdx)
    (hs : scalars p.1 partition = scalars q.1 partition)
    (hp₁ : Expr.ofWindow rows.zipIdx p
      (.overWindow .rowNumber partition [(e, some direction)] none) = .number 1)
    (hq₁ : Expr.ofWindow rows.zipIdx q
      (.overWindow .rowNumber partition [(e, some direction)] none) = .number 1) : p = q := by
  have hpq := (rowNumber_eq_one_iff.mp hp₁) q (mem_partitionOf_iff.mpr ⟨hq, hs.symm⟩)
  have hqp := (rowNumber_eq_one_iff.mp hq₁) p (mem_partitionOf_iff.mpr ⟨hp, hs⟩)
  rw [precedes_iff, not_or, not_and] at hpq hqp
  have he : e.scalar p.1 = e.scalar q.1 := by
    cases direction with
    | asc => exact le_antisymm (not_lt.mp hpq.1) (not_lt.mp hqp.1)
    | desc => exact le_antisymm (not_lt.mp hqp.1) (not_lt.mp hpq.1)
  have hplace : p.2 = q.2 := Nat.le_antisymm (not_lt.mp (hpq.2 he.symm)) (not_lt.mp (hqp.2 he))
  refine List.inj_on_of_nodup_map (f := Prod.snd) ?_ hp hq hplace
  rw [List.zipIdx_map_snd]
  exact List.nodup_range'

theorem exists_find? {α : Type} {l : List α} {f : α → Bool} {x : α} (hx : x ∈ l)
    (hf : f x = true) : ∃ y ∈ l, f y = true ∧ l.find? f = some y := by
  obtain ⟨y, hy⟩ := Option.isSome_iff_exists.mp (List.find?_isSome.mpr ⟨x, hx, hf⟩)
  exact ⟨y, List.mem_of_find?_eq_some hy, List.find?_some hy, hy⟩

theorem mem_partitionOf_self {rows : List Placed} (partition : List Expr) {p : Placed}
    (hp : p ∈ rows) : p ∈ partitionOf rows partition p := mem_partitionOf_iff.mpr ⟨hp, rfl⟩

/-- Some row has none before it in a direction. -/
theorem exists_extreme {e : Expr} {rows : List Placed} (direction : Direction) {p : Placed}
    (hp : p ∈ rows) :
    ∃ q ∈ rows, ∀ a ∈ rows, ¬direction.Before (e.scalar a.1) (e.scalar q.1) := by
  have hne : rows ≠ [] := List.ne_nil_of_mem hp
  cases direction with
  | asc =>
    obtain ⟨q, hq⟩ := Option.ne_none_iff_exists'.mp
      (mt (List.argmin_eq_none (f := fun q : Placed => e.scalar q.1)).mp hne)
    exact ⟨q, List.argmin_mem hq, fun a ha => (List.le_of_mem_argmin ha hq).not_gt⟩
  | desc =>
    obtain ⟨q, hq⟩ := Option.ne_none_iff_exists'.mp
      (mt (List.argmax_eq_none (f := fun q : Placed => e.scalar q.1)).mp hne)
    exact ⟨q, List.argmax_mem hq, fun a ha => (List.le_of_mem_argmax ha hq).not_gt⟩

section
variable {e : Expr} {partition : List Expr} {rows : List Binding} (hr : TellsApart e partition rows)
include hr

/-- Two rows that cannot be told apart are one, at one place. -/
theorem TellsApart.eq_of_mem {p q : Placed} (hp : p ∈ rows.zipIdx) (hq : q ∈ rows.zipIdx)
    (hs : scalars p.1 partition = scalars q.1 partition) (he : e.scalar p.1 = e.scalar q.1) :
    p = q := by
  have hplaced : rows.zipIdx.Pairwise fun p q =>
      scalars p.1 partition = scalars q.1 partition → e.scalar p.1 ≠ e.scalar q.1 := by
    rw [← List.pairwise_map (f := Prod.fst) (R := fun a b =>
      scalars a partition = scalars b partition → e.scalar a ≠ e.scalar b), List.zipIdx_map_fst]
    exact hr
  have : Std.Symm fun p q : Placed =>
      scalars p.1 partition = scalars q.1 partition → e.scalar p.1 ≠ e.scalar q.1 :=
    ⟨fun _ _ h hs => (h hs.symm).symm⟩
  by_contra hne
  exact hplaced.forall hp hq hne hs he

theorem TellsApart.precedes_iff {direction : Direction} {p q : Placed} (hp : p ∈ rows.zipIdx)
    (hq : q ∈ rows.zipIdx) (hs : scalars p.1 partition = scalars q.1 partition) :
    precedes [(e, some direction)] p q = true ↔
      direction.Before (e.scalar p.1) (e.scalar q.1) := by
  rw [Sql.precedes_iff]
  refine ⟨?_, .inl⟩
  rintro (h | ⟨he, hlt⟩)
  · exact h
  · rw [hr.eq_of_mem hp hq hs he] at hlt
    exact absurd hlt (Nat.lt_irrefl _)

theorem TellsApart.rowNumber_eq_one_iff {direction : Direction} {p : Placed}
    (hp : p ∈ rows.zipIdx) :
    Expr.ofWindow rows.zipIdx p
        (.overWindow .rowNumber partition [(e, some direction)] none) = .number 1 ↔
      ∀ b ∈ blockOf rows partition p.1, ¬direction.Before (e.scalar b) (e.scalar p.1) := by
  rw [Sql.rowNumber_eq_one_iff]
  constructor
  · intro h b hb
    obtain ⟨i, hq⟩ := exists_of_mem_blockOf hb
    obtain ⟨hmem, hs⟩ := mem_partitionOf_iff.mp hq
    rw [← hr.precedes_iff hmem hp hs]
    exact h _ hq
  · intro h q hq
    obtain ⟨hmem, hs⟩ := mem_partitionOf_iff.mp hq
    rw [hr.precedes_iff hmem hp hs]
    exact h _ (fst_mem_blockOf hq)

theorem TellsApart.not_precedes_iff {direction : Direction} {p a b : Placed}
    (ha : a ∈ partitionOf rows.zipIdx partition p) (hb : b ∈ partitionOf rows.zipIdx partition p) :
    (!precedes [(e, some direction)] a b) = true ↔
      ¬direction.Before (e.scalar a.1) (e.scalar b.1) := by
  obtain ⟨hma, hsa⟩ := mem_partitionOf_iff.mp ha
  obtain ⟨hmb, hsb⟩ := mem_partitionOf_iff.mp hb
  rw [Bool.not_eq_true', Bool.eq_false_iff, ne_eq, hr.precedes_iff hma hmb (hsa.trans hsb.symm)]

omit hr in
/-- A search for the row that no other comes before, by a test that says so, finds such a row. -/
theorem exists_find?_extreme {direction : Direction} {p : Placed} (hp : p ∈ rows.zipIdx)
    {test : Placed → Placed → Bool}
    (ht : ∀ a ∈ partitionOf rows.zipIdx partition p, ∀ b ∈ partitionOf rows.zipIdx partition p,
      test a b = true ↔ ¬direction.Before (e.scalar a.1) (e.scalar b.1)) :
    ∃ q, ((partitionOf rows.zipIdx partition p).find? fun b =>
        (partitionOf rows.zipIdx partition p).all fun a => test a b) = some q ∧
      q.1 ∈ blockOf rows partition p.1 ∧
      ∀ a ∈ blockOf rows partition p.1, ¬direction.Before (e.scalar a) (e.scalar q.1) := by
  obtain ⟨m, hm, hextreme⟩ := exists_extreme direction (mem_partitionOf_self partition hp)
  obtain ⟨q, hq, hall, hfind⟩ := exists_find?
    (f := fun b => (partitionOf rows.zipIdx partition p).all fun a => test a b) hm
    (List.all_eq_true.mpr fun a ha => (ht a ha m hm).mpr (hextreme a ha))
  refine ⟨q, hfind, fst_mem_blockOf hq, fun a ha => ?_⟩
  obtain ⟨i, ha⟩ := exists_of_mem_blockOf ha
  exact (ht _ ha q hq).mp (List.all_eq_true.mp hall _ ha)

/-- The first value is that on a row with none before it. -/
theorem TellsApart.exists_firstValue {p : Placed} (hp : p ∈ rows.zipIdx) (x : Expr) :
    ∃ b ∈ blockOf rows partition p.1,
      (∀ a ∈ blockOf rows partition p.1, ¬Direction.asc.Before (e.scalar a) (e.scalar b)) ∧
      Expr.ofWindow rows.zipIdx p (.overWindow (.firstValue x) partition [(e, some .asc)]
        (some .wholePartition)) = x.scalar b := by
  have hbefore : ∀ a ∈ partitionOf rows.zipIdx partition p,
      ∀ b ∈ partitionOf rows.zipIdx partition p, (!precedes [(e, some .asc)] a b) = true ↔
        ¬Direction.asc.Before (e.scalar a.1) (e.scalar b.1) :=
    fun a ha b hb => hr.not_precedes_iff ha hb
  obtain ⟨q, hfind, hq, hfirst⟩ := exists_find?_extreme hp hbefore
  refine ⟨q.1, hq, hfirst, ?_⟩
  show ((firstBy [(e, some .asc)] (partitionOf rows.zipIdx partition p)).map fun q =>
    argument [x] q.1).getD .null = _
  rw [firstBy, hfind]
  rfl

/-- The last value is that on a row with none behind it. -/
theorem TellsApart.exists_lastValue {p : Placed} (hp : p ∈ rows.zipIdx) (x : Expr) :
    ∃ b ∈ blockOf rows partition p.1,
      (∀ a ∈ blockOf rows partition p.1, ¬Direction.desc.Before (e.scalar a) (e.scalar b)) ∧
      Expr.ofWindow rows.zipIdx p (.overWindow (.lastValue x) partition [(e, some .asc)]
        (some .wholePartition)) = x.scalar b := by
  -- behind in one direction is before in the other
  have hbehind : ∀ a ∈ partitionOf rows.zipIdx partition p,
      ∀ b ∈ partitionOf rows.zipIdx partition p, (!precedes [(e, some .asc)] b a) = true ↔
        ¬Direction.desc.Before (e.scalar a.1) (e.scalar b.1) :=
    fun a ha b hb => hr.not_precedes_iff hb ha
  obtain ⟨q, hfind, hq, hlast⟩ := exists_find?_extreme hp hbehind
  refine ⟨q.1, hq, hlast, ?_⟩
  show ((lastBy [(e, some .asc)] (partitionOf rows.zipIdx partition p)).map fun q =>
    argument [x] q.1).getD .null = _
  rw [lastBy, hfind]
  rfl

end

/-- A function of all values, over a window without an order, reads the whole partition. -/
theorem ofWindow_setFunction {rows : List Binding} {partition : List Expr} {p : Placed}
    {function : String} {distinct : Bool} {f : List Value → Value} (x : Expr)
    (hf : setFunction? function distinct = some f) :
    Expr.ofWindow rows.zipIdx p
        (.overWindow (.call function [x] distinct) partition [] none) =
      f ((blockOf rows partition p.1).map fun b => x.scalar b) := by
  have hread : (partitionOf rows.zipIdx partition p).map (fun q => argument [x] q.1) =
      (blockOf rows partition p.1).map fun b => x.scalar b := by
    rw [← map_fst_partitionOf, List.map_map]
    rfl
  rw [← hread]
  unfold setFunction? at hf
  split at hf <;> cases hf <;> rfl

end EventQuery.Sql
