import EventQuery.Proofs.Dataset.Meaning
import EventQuery.Proofs.Sql.Windows

/-! Picked rows. Among rows with different timestamps the picked one is the only one with none
before it, so that the base rows of a dataset can be found row by row as well as key by key. -/

namespace EventQuery

open Sql (Database Direction Row)

namespace Selector

/-- The order of time in which the picked row is the first. -/
def direction : Selector → Direction
  | .last => .desc
  | _ => .asc

variable {s : Selector} {timestamp : String} {rows : List Row}

/-- The picked row is one of the rows, and none of them is before it. -/
theorem pick_spec (timestamp : String) (hs : s ≠ .omitted) (hne : rows ≠ []) :
    s.pick timestamp rows ∈ rows ∧ ∀ r ∈ rows,
      ¬s.direction.Before (r.value timestamp) ((s.pick timestamp rows).value timestamp) := by
  cases s with
  | first =>
    obtain ⟨m, hm⟩ := Option.ne_none_iff_exists'.mp
      (mt (List.argmin_eq_none (f := (·.value timestamp))).mp hne)
    rw [pick, hm, Option.getD_some]
    exact ⟨List.argmin_mem hm, fun r hr => (List.le_of_mem_argmin hr hm).not_gt⟩
  | last =>
    obtain ⟨m, hm⟩ := Option.ne_none_iff_exists'.mp
      (mt (List.argmax_eq_none (f := (·.value timestamp))).mp hne)
    rw [pick, hm, Option.getD_some]
    exact ⟨List.argmax_mem hm, fun r hr => (List.le_of_mem_argmax hr hm).not_gt⟩
  | omitted => exact absurd rfl hs

/-- Among rows with different timestamps there is no other such row. -/
theorem pick_eq (hs : s ≠ .omitted) (hn : (rows.map (·.value timestamp)).Nodup) {m : Row}
    (hm : m ∈ rows) (h : ∀ r ∈ rows, ¬s.direction.Before (r.value timestamp) (m.value timestamp)) :
    s.pick timestamp rows = m := by
  obtain ⟨hp, hfirst⟩ := pick_spec timestamp hs (List.ne_nil_of_mem hm)
  have hle := h _ hp
  have hge := hfirst _ hm
  refine List.inj_on_of_nodup_map hn hp hm ?_
  cases s with
  | first => exact le_antisymm (not_lt.mp hge) (not_lt.mp hle)
  | last => exact le_antisymm (not_lt.mp hle) (not_lt.mp hge)
  | omitted => exact absurd rfl hs

end Selector

namespace Dataset

variable {db : Database} {d : Dataset}

/-- The base rows before which there is none of the same key. -/
def anchors (db : Database) (d : Dataset) : List Row :=
  (d.base.event.relation db).rows.filter fun r => ∀ a ∈ (d.base.event.relation db).rows,
    a.value d.base.partitionKey = r.value d.base.partitionKey →
    ¬d.base.selector.direction.Before (a.value d.base.event.timestampColumn)
      (r.value d.base.event.timestampColumn)

theorem mem_anchors_iff {r : Row} : r ∈ d.anchors db ↔
    r ∈ (d.base.event.relation db).rows ∧ ∀ a ∈ (d.base.event.relation db).rows,
      a.value d.base.partitionKey = r.value d.base.partitionKey →
      ¬d.base.selector.direction.Before (a.value d.base.event.timestampColumn)
        (r.value d.base.event.timestampColumn) := by
  simp [anchors]

section
variable (hs : d.base.selector ≠ .omitted)
include hs

theorem anchor_mem_anchors {key : Sql.Value} (hk : key ∈ d.keys db) :
    d.anchor db key ∈ d.anchors db ∧ (d.anchor db key).value d.base.partitionKey = key := by
  rw [keys, List.mem_dedup, List.mem_map] at hk
  obtain ⟨r, hr, rfl⟩ := hk
  have hmem : r ∈ (d.base.event.relation db).rows.filter fun a =>
      a.value d.base.partitionKey = r.value d.base.partitionKey := by simp [hr]
  obtain ⟨hp, hfirst⟩ := Selector.pick_spec d.base.event.timestampColumn hs
    (List.ne_nil_of_mem hmem)
  obtain ⟨hp, hkey⟩ := List.mem_filter.mp hp
  have hkey : (d.anchor db _).value d.base.partitionKey = r.value d.base.partitionKey :=
    of_decide_eq_true hkey
  refine ⟨mem_anchors_iff.mpr ⟨hp, fun a ha he => hfirst a ?_⟩, hkey⟩
  exact List.mem_filter.mpr ⟨ha, decide_eq_true (he.trans hkey)⟩

variable (hn : ((d.base.event.relation db).rows.map (·.value d.base.event.timestampColumn)).Nodup)
include hn

theorem anchor_of_mem_anchors {r : Row} (hr : r ∈ d.anchors db) :
    d.anchor db (r.value d.base.partitionKey) = r := by
  obtain ⟨hmem, hfirst⟩ := mem_anchors_iff.mp hr
  refine Selector.pick_eq hs ?_ (List.mem_filter.mpr ⟨hmem, decide_eq_true rfl⟩) ?_
  · exact hn.sublist (List.filter_sublist.map _)
  · intro a ha
    obtain ⟨ha, he⟩ := List.mem_filter.mp ha
    exact hfirst a ha (of_decide_eq_true he)

theorem nodup_map_key_anchors : ((d.anchors db).map (·.value d.base.partitionKey)).Nodup := by
  have hnodup : (d.anchors db).Nodup := (hn.of_map _).filter _
  refine hnodup.map_on fun r hr r' hr' he => ?_
  rw [← anchor_of_mem_anchors hs hn hr, he, anchor_of_mem_anchors hs hn hr']

/-- Found row by row or key by key, the base rows are the same. -/
theorem anchors_perm : (d.anchors db).Perm ((d.keys db).map (d.anchor db)) := by
  have hkeys : ((d.keys db).map (d.anchor db)).Nodup := by
    refine (List.nodup_dedup _).map_on fun k hk k' hk' he => ?_
    rw [← (anchor_mem_anchors hs hk).2, he, (anchor_mem_anchors hs hk').2]
  have hanchors : (d.anchors db).Nodup := (hn.of_map _).filter _
  refine (List.perm_ext_iff_of_nodup hanchors hkeys).mpr fun r => ?_
  rw [List.mem_map]
  constructor
  · intro hr
    refine ⟨r.value d.base.partitionKey, ?_, anchor_of_mem_anchors hs hn hr⟩
    exact List.mem_dedup.mpr (List.mem_map_of_mem (mem_anchors_iff.mp hr).1)
  · rintro ⟨k, hk, rfl⟩
    exact (anchor_mem_anchors hs hk).1

end

end Dataset

end EventQuery
