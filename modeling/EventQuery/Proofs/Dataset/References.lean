import EventQuery.Catalog.Demo
import EventQuery.Proofs.Dataset.Lowering
import EventQuery.Proofs.Dataset.Soundness

/-! References to the named queries of joins. The query of a join is read by the query that makes
one row a key of it, and this one by the result. A reference names one column there unless two
columns of the join have the same label, which nothing rules out. -/

namespace EventQuery

open Sql

namespace Emission

variable {source : List String → List String} {d : Dataset} {j : JoinedEvent}

/-! ## What the queries read -/

theorem scope_outerQuery {outer : Scope} {i : Nat}
    (h : outer.lookup (innerName i j.selector) = some (joinColumns j)) :
    (outerQuery i j).scope source outer = [(innerName i j.selector, joinColumns j)] := by
  by_cases ho : j.selector = .omitted
  · rw [outerQuery_of_eq ho]
    exact scope_of_lookup rfl rfl (split_innerName i j.selector) h
  · rw [outerQuery_of_ne ho]
    exact scope_of_lookup rfl rfl (split_innerName i j.selector) h

theorem refersOnly_timeOrder {kind : Reference → Prop} {table timestamp : String}
    (h : kind (some table, timestamp)) (s : Selector) :
    ∀ o ∈ timeOrder table timestamp s, o.1.RefersOnly kind := by
  rw [timeOrder_eq]
  exact List.forall_mem_singleton.mpr (Expr.refersOnly_ofTable.mpr h)

section
variable {kind : Reference → Prop} {b : BaseEvent} (hbase : ∀ column, kind (some base, column))
include hbase

/-- A function over a window that the key of the base row divides. -/
theorem refersOnly_overWindow_base {function : String} {args : List Expr} {distinct : Bool}
    {order : List (Expr × Option Direction)} {frame : Option Frame}
    (ha : ∀ e ∈ args, e.RefersOnly kind) (ho : ∀ o ∈ order, o.1.RefersOnly kind) :
    (Expr.overWindow (.call function args distinct) [.ofTable base b.partitionKey] order
      frame).RefersOnly kind :=
  Expr.refersOnly_window (Expr.refersOnly_call ha)
    (List.forall_mem_singleton.mpr (Expr.refersOnly_ofTable.mpr (hbase _))) ho

variable (hjoined : ∀ column, kind (some joined, column))
include hjoined

theorem refersOnly_joinCondition : (joinCondition b j).RefersOnly kind := by
  rw [joinCondition]
  induction j.keys with
  | nil =>
    exact Expr.refersOnly_binary (Expr.refersOnly_ofTable.mpr (hjoined _))
      (Expr.refersOnly_ofTable.mpr (hbase _))
  | cons k keys ih =>
    refine Expr.refersOnly_binary (Expr.refersOnly_binary ?_ ?_) ih
    · exact Expr.refersOnly_ofTable.mpr (hjoined _)
    · exact Expr.refersOnly_ofTable.mpr (hbase _)

/-- What a joined query selects refers to the base rows and the joined table only. -/
theorem refersOnly_of_isMatched {e : Expr} (he : IsMatched b j e) : e.RefersOnly kind := by
  have hplain : ∀ column, (Expr.ofTable joined column).RefersOnly kind := fun column =>
    Expr.refersOnly_ofTable.mpr (hjoined column)
  cases he with
  | key => exact Expr.refersOnly_ofTable.mpr (hbase _)
  | plain => exact hplain _
  | positional =>
    exact refersOnly_overWindow_base hbase (List.forall_mem_singleton.mpr (hplain _))
      (refersOnly_timeOrder (hjoined _) .first)
  | folded f =>
    cases f <;>
      exact refersOnly_overWindow_base hbase (List.forall_mem_singleton.mpr (hplain _)) nofun
  | rank => exact refersOnly_overWindow_base hbase nofun (refersOnly_timeOrder (hjoined _) _)

theorem forall_references_matchingRows {select : List SelectItem}
    (h : ∀ item ∈ select, item.expr.RefersOnly kind) :
    ∀ r ∈ (matchingRows b j select).references, kind r := by
  refine Query.forall_references h ?_ ?_ nofun
  · exact List.forall_mem_singleton.mpr (refersOnly_joinCondition hbase hjoined)
  · intro e he
    obtain ⟨f, hf, rfl⟩ := Option.map_eq_some_iff.mp he
    exact Expr.refersOnly_binary (Expr.refersOnly_ofTable.mpr (hjoined _))
      (Expr.refersOnly_literal _)

theorem forall_references_innerQuery : ∀ r ∈ (innerQuery b j).references, kind r := by
  obtain ⟨select, hquery, hselect⟩ := exists_innerQuery_eq b j
  rw [hquery]
  refine forall_references_matchingRows hbase hjoined fun x hx => ?_
  obtain ⟨e, label, rfl, he⟩ := hselect x hx
  exact refersOnly_of_isMatched hbase hjoined he

end

theorem forall_references_rankedBase {kind : Reference → Prop} {b : BaseEvent}
    (h : ∀ column, kind (some Emission.source, column)) :
    ∀ r ∈ (rankedBase b).references, kind r := by
  have hplain : ∀ column, (Expr.ofTable Emission.source column).RefersOnly kind := fun column =>
    Expr.refersOnly_ofTable.mpr (h column)
  have hselect : (rankedBase b).select = [⟨.star (some Emission.source), none⟩,
      item (.overWindow .rowNumber [.ofTable Emission.source b.partitionKey]
        (timeOrder Emission.source b.event.timestampColumn b.selector) none) rank] := rfl
  refine Query.forall_references ?_ nofun nofun nofun
  rw [hselect, List.forall_mem_cons, List.forall_mem_singleton]
  refine ⟨nofun, Expr.refersOnly_window (Expr.refersOnly_call nofun) ?_ ?_⟩
  · exact List.forall_mem_singleton.mpr (hplain _)
  · exact refersOnly_timeOrder (h _) _

theorem forall_references_rankOne {kind : Reference → Prop} {name : String}
    (h : kind (some name, rank)) : ∀ r ∈ (rankOne name).references, kind r := by
  refine Query.forall_references (List.forall_mem_singleton.mpr nofun) nofun ?_ nofun
  rintro _ ⟨rfl⟩
  exact Expr.refersOnly_binary (Expr.refersOnly_ofTable.mpr h) (Expr.refersOnly_literal _)

theorem forall_references_grouped {kind : Reference → Prop} {rows : String}
    (h : ∀ column ∈ joinColumns j, kind (some rows, column)) :
    ∀ r ∈ (grouped rows j).references, kind r := by
  have hplain : ∀ column ∈ joinColumns j, (Expr.ofTable rows column).RefersOnly kind :=
    fun column hc => Expr.refersOnly_ofTable.mpr (h column hc)
  have hgroups : ∀ e ∈ (grouped rows j).groups, e.RefersOnly kind := by
    intro e he
    obtain ⟨column, hc, rfl⟩ := exists_of_mem_groups he
    exact hplain column hc
  refine Query.forall_references (fun x hx => ?_) nofun nofun hgroups
  rcases mem_groups_or_exists_fold hx with he | ⟨f, column, hc, he⟩
  · exact hgroups _ he
  · rw [he]
    cases f <;> exact Expr.refersOnly_call (List.forall_mem_singleton.mpr (hplain column hc))

theorem forall_references_outerQuery {kind : Reference → Prop} {i : Nat}
    (h : ∀ column ∈ joinColumns j, kind (some (innerName i j.selector), column)) :
    ∀ r ∈ (outerQuery i j).references, kind r := by
  by_cases ho : j.selector = .omitted
  · rw [outerQuery_of_eq ho]
    exact forall_references_grouped h
  · rw [outerQuery_of_ne ho]
    exact forall_references_rankOne (h _ (by simp [joinColumns, rankColumn_of_ne ho]))

/-- The final query refers to the base rows and to columns of the joins. -/
theorem forall_references_query {kind : Reference → Prop}
    (hbase : ∀ column, kind (some base, column))
    (h : ∀ p ∈ d.joins.zipIdx, ∀ column ∈ joinColumns p.1, kind (some (joinName p.2), column)) :
    ∀ r ∈ (query d).references, kind r := by
  refine Query.forall_references ?_ ?_ nofun nofun
  · intro x hx
    obtain ⟨e, label, rfl, he⟩ := exists_of_mem_results hx
    cases he with
    | base hc => exact Expr.refersOnly_ofTable.mpr (hbase _)
    | plain hp hc => exact Expr.refersOnly_ofTable.mpr (h _ hp _ (label_mem_joinColumns hc))
    | count hp hc =>
      have hplain := Expr.refersOnly_ofTable.mpr (h _ hp _ (label_mem_joinColumns hc))
      refine Expr.refersOnly_call ?_
      rw [List.forall_mem_cons, List.forall_mem_singleton]
      exact ⟨hplain, Expr.refersOnly_literal _⟩
  · rw [joins_query, List.forall_mem_map]
    intro p hp
    exact Expr.refersOnly_binary (Expr.refersOnly_ofTable.mpr (h p hp _ List.mem_cons_self))
      (Expr.refersOnly_ofTable.mpr (hbase _))

/-- Every label of a join is referred to by the final query. -/
theorem mem_references_query {p : JoinedEvent × Nat} (hp : p ∈ d.joins.zipIdx) {c : JoinedColumn}
    (hc : c ∈ p.1.columns) : (some (joinName p.2), c.label) ∈ (query d).references := by
  have hselect : (some (joinName p.2), c.label) ∈ (results d).flatMap (·.expr.references) :=
    List.mem_flatMap.mpr ⟨_, resultItem_mem_results hp hc, mem_references_resultItem _ c⟩
  exact List.mem_append_left _ (List.mem_append_left _ (List.mem_append_left _ hselect))

/-! ## References to joins -/

/-- A column of a join is there once, unless it is the label of two columns. -/
theorem count_joinColumns_eq_one_iff (hl : ∀ c ∈ j.columns, isReserved c.label = false)
    {column : String} (hc : column ∈ joinColumns j) :
    (joinColumns j).count column = 1 ↔ (j.columns.map (·.label)).count column ≤ 1 := by
  have hcount : (joinColumns j).count column =
      (j.columns.map (·.label)).count column + (baseKey :: rankColumn j.selector).count column := by
    rw [joinColumns, ← List.count_append]
    exact List.perm_middle.symm.count_eq column
  have hhelpers : (baseKey :: rankColumn j.selector).Nodup ∧
      ∀ name ∈ baseKey :: rankColumn j.selector, isReserved name = true := by
    cases j.selector <;> decide
  by_cases hmem : column ∈ baseKey :: rankColumn j.selector
  · have hnone : column ∉ j.columns.map (·.label) := by
      rintro hlabel
      obtain ⟨c, hmem', rfl⟩ := List.mem_map.mp hlabel
      exact Bool.noConfusion ((hl c hmem').symm.trans (hhelpers.2 _ hmem))
    rw [hcount, List.count_eq_zero_of_not_mem hnone, List.count_eq_one_of_mem hhelpers.1 hmem]
    simp
  · have hpos := List.count_pos_iff.mpr hc
    rw [hcount, List.count_eq_zero_of_not_mem hmem] at hpos ⊢
    omega

/-- A join is known by its place. -/
theorem eq_of_mem_zipIdx {p p' : JoinedEvent × Nat} (hp : p ∈ d.joins.zipIdx)
    (hp' : p' ∈ d.joins.zipIdx) (h : p.2 = p'.2) : p = p' := by
  have hget := List.mem_zipIdx_iff_getElem?.mp hp
  rw [h, List.mem_zipIdx_iff_getElem?.mp hp'] at hget
  exact Prod.ext (Option.some.inj hget).symm h

/-- The name in a reference is one of the two that a join takes. -/
def NamesJoin (p : JoinedEvent × Nat) (r : Reference) : Prop :=
  r.1 = some (innerName p.2 p.1.selector) ∨ r.1 = some (joinName p.2)

instance (p : JoinedEvent × Nat) (r : Reference) : Decidable (NamesJoin p r) :=
  inferInstanceAs (Decidable (_ ∨ _))

/-- A reference under a name of a join leaves the columns of this join, and is to one of them. -/
def ReadsJoins (d : Dataset) (scope : Scope) (r : Reference) : Prop :=
  ∀ p ∈ d.joins.zipIdx, NamesJoin p r → r.2 ∈ joinColumns p.1 ∧ scope.within r.1 = joinColumns p.1

theorem readsJoins_of_notMem {scope : Scope} {name : String}
    (h : name ∉ joinNames d.joins.zipIdx) (column : String) :
    ReadsJoins d scope (some name, column) := by
  rintro p hp hname
  refine absurd (mem_joinNames_iff.mpr ⟨p, hp, ?_⟩) h
  exact hname.imp Option.some.inj Option.some.inj

theorem readsJoins_innerName {scope : Scope} {p : JoinedEvent × Nat} (hp : p ∈ d.joins.zipIdx)
    (hs : scope.within (some (innerName p.2 p.1.selector)) = joinColumns p.1) {column : String}
    (hc : column ∈ joinColumns p.1) :
    ReadsJoins d scope (some (innerName p.2 p.1.selector), column) := by
  rintro p' hp' (h | h)
  · obtain rfl := eq_of_mem_zipIdx hp hp' (innerName_inj (Option.some.inj h))
    exact ⟨hc, hs⟩
  · exact absurd (Option.some.inj h).symm (joinName_ne_innerName _ _ _)

theorem readsJoins_joinName {scope : Scope} {p : JoinedEvent × Nat} (hp : p ∈ d.joins.zipIdx)
    (hs : scope.within (some (joinName p.2)) = joinColumns p.1) {column : String}
    (hc : column ∈ joinColumns p.1) : ReadsJoins d scope (some (joinName p.2), column) := by
  rintro p' hp' (h | h)
  · exact absurd (Option.some.inj h) (joinName_ne_innerName _ _ _)
  · obtain rfl := eq_of_mem_zipIdx hp hp' (joinName_inj (Option.some.inj h))
    exact ⟨hc, hs⟩

/-- Every query in the query of a dataset refers to columns that the joins have. -/
theorem forall_parts_readsJoins : ∀ part ∈ (query d).parts source [], ∀ r ∈ part.2.references,
    ReadsJoins d (part.2.scope source part.1) r := by
  refine forall_parts_query (fun _ => True) ?_ ?_ trivial (fun _ _ _ _ _ => trivial) ?_ ?_ ?_
  · exact forall_references_rankedBase (readsJoins_of_notMem (notMem_joinNames (by decide) _))
  · exact forall_references_rankOne (readsJoins_of_notMem (notMem_joinNames (by decide) _) _)
  · rintro outer - p -
    exact forall_references_innerQuery (readsJoins_of_notMem (notMem_joinNames (by decide) _))
      (readsJoins_of_notMem (notMem_joinNames (by decide) _))
  · rintro outer - p hp hlookup
    refine forall_references_outerQuery fun column hc => readsJoins_innerName hp ?_ hc
    show Scope.within ((outerQuery p.2 p.1).scope source outer) _ = _
    rw [scope_outerQuery hlookup, within_singleton]
  · refine forall_references_query (readsJoins_of_notMem (notMem_joinNames (by decide) _))
      fun p hp column hc => readsJoins_joinName hp ?_ hc
    show Scope.within ((query d).scope source (Query.cteColumns source (ctes d) [])) _ = _
    rw [scope_query]
    exact Scope.within_of_mem nodup_resultScope (List.mem_cons_of_mem _ (List.mem_map_of_mem hp))

end Emission

variable {ρ : Type} {catalog : Catalog} {q : Query ρ} {d : Dataset}

/-- **References to the named queries of joins.** Such a reference, in any of the queries that the
query of a dataset is made of, names one column unless two columns of the join have this label. So
all of them do exactly when the labels of each join are different. -/
theorem join_references_resolve_iff (h : q.toDataset catalog = .ok d)
    (source : List String → List String) :
    (∀ part ∈ d.toQuery.parts source [], ∀ r ∈ part.2.references, ∀ p ∈ d.joins.zipIdx,
      Emission.NamesJoin p r → ((part.2.scope source part.1).Resolves r ↔
        (p.1.columns.map (·.label)).count r.2 ≤ 1)) ∧
    ((∀ part ∈ d.toQuery.parts source [], ∀ r ∈ part.2.references, ∀ p ∈ d.joins.zipIdx,
      Emission.NamesJoin p r → (part.2.scope source part.1).Resolves r) ↔
        ∀ j ∈ d.joins, (j.columns.map (·.label)).Nodup) := by
  have hiff : ∀ part ∈ d.toQuery.parts source [], ∀ r ∈ part.2.references,
      ∀ p ∈ d.joins.zipIdx, Emission.NamesJoin p r →
        ((part.2.scope source part.1).Resolves r ↔
          (p.1.columns.map (·.label)).count r.2 ≤ 1) := by
    intro part hpart r hr p hp hname
    obtain ⟨hc, hscope⟩ := Emission.forall_parts_readsJoins part hpart r hr p hp hname
    rw [Scope.Resolves, hscope]
    exact Emission.count_joinColumns_eq_one_iff
      (fun c hc => Query.labels_of_toDataset h (List.fst_mem_of_mem_zipIdx hp) hc) hc
  refine ⟨hiff, fun hall j hj => ?_, fun hn part hpart r hr p hp hname => ?_⟩
  · obtain ⟨i, hi⟩ := Emission.exists_mem_zipIdx hj
    refine Emission.nodup_labels_of_count fun c hc => ?_
    have hresolves := hall _ Emission.query_mem_parts _ (Emission.mem_references_query hi hc) _ hi
      (.inr rfl)
    rw [Emission.scope_query] at hresolves
    exact Emission.count_of_resolves hi hresolves
  · refine (hiff part hpart r hr p hp hname).mpr ?_
    exact List.nodup_iff_count_le_one.mp (hn p.1 (List.fst_mem_of_mem_zipIdx hp)) r.2

/-- A first sign-up, with two counts of the logins after it. -/
def visitCounts (label : String) : Query Unit where
  select := ⟨⟨.first, ()⟩, ⟨"user_signed_up", ()⟩, [.reference ⟨"plan", ()⟩ ⟨"plan", ()⟩ ()], ()⟩
  joins := [⟨⟨.after, ()⟩, ⟨.omitted, ()⟩, ⟨"user_logged_in", ()⟩, [],
    [.aggregation ⟨.count, ()⟩ ⟨"event_id", ()⟩ ⟨"visits", ()⟩ (),
      .aggregation ⟨.countDistinct, ()⟩ ⟨"device", ()⟩ ⟨label, ()⟩ ()], none, ()⟩]
  place := ()

def visitDevices : Dataset :=
  ((visitCounts "devices").toDataset Catalog.demo).toOption.get (by decide +kernel)

/-- With two labels for the counts, every reference names one column. -/
theorem visitDevices_references_resolve :
    (visitCounts "devices").toDataset Catalog.demo = .ok visitDevices ∧
      ∀ part ∈ visitDevices.toQuery.parts (fun _ => []) [], ∀ r ∈ part.2.references,
        ∀ p ∈ visitDevices.joins.zipIdx, Emission.NamesJoin p r →
          (part.2.scope (fun _ => []) part.1).Resolves r := by
  have h : (visitCounts "devices").toDataset Catalog.demo = .ok visitDevices := by decide +kernel
  exact ⟨h, (join_references_resolve_iff h _).2.mpr (by decide +kernel)⟩

def visitTwins : Dataset :=
  ((visitCounts "visits").toDataset Catalog.demo).toOption.get (by decide +kernel)

/-- With one label for both counts, what the result takes from the join is one of two columns. -/
theorem visitTwins_reference_ambiguous :
    (visitCounts "visits").validate Catalog.demo = .ok () ∧
      (visitCounts "visits").toDataset Catalog.demo = .ok visitTwins ∧
      ∃ part ∈ visitTwins.toQuery.parts (fun _ => []) [], ∃ r ∈ part.2.references,
        ∃ p ∈ visitTwins.joins.zipIdx, Emission.NamesJoin p r ∧
          ¬(part.2.scope (fun _ => []) part.1).Resolves r := by
  refine ⟨?_, ?_, ?_⟩ <;> decide +kernel

end EventQuery
