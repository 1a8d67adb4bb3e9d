import EventQuery.Catalog.Demo
import EventQuery.Proofs.Dataset.Lowering
import EventQuery.Proofs.Dataset.ResultRows
import EventQuery.Proofs.Dataset.Soundness

/-! The query of a dataset computes the meaning of the dataset: over a database that suits the
dataset it gives one row for each value of the partition key, with the columns of the base row that
is picked for it and those that each join makes of the rows that match this base row. -/

namespace EventQuery

open Sql

namespace Emission

variable {db : Database} {d : Dataset}

theorem columns_resultItem (name : String) (c : JoinedColumn) (scope : Scope) :
    (resultItem name c).columns scope = [c.label] := by
  obtain ⟨label, value⟩ := c
  cases value with
  | reference source physical => rfl
  | aggregation f argument physical => cases f <;> rfl

theorem columns_run_query (db : Database) : ((query d).run db []).columns = d.labels := by
  show (results d).flatMap _ = _
  have hbase : ∀ c ∈ d.base.columns, ∀ scope,
      (item (.ofTable base c.physical) c.label).columns scope = [c.label] := fun c _ scope => rfl
  rw [results_eq, List.flatMap_append, flatMap_columns fun c hc => hbase c hc _, List.flatMap_assoc,
    Dataset.labels]
  refine congrArg _ ?_
  conv_rhs => rw [← List.zipIdx_map_fst 0 d.joins, List.flatMap_map]
  exact List.flatMap_congr fun p _ => flatMap_columns fun c _ => columns_resultItem _ c _

end Emission

variable {ρ : Type} {catalog : Catalog} {q : Query ρ} {d : Dataset}

/-- **The query of a dataset computes its meaning**, where no joined table is hidden by a named
query, the labels of each join are different, and the plain columns of a join without a selector
are columns that it matches on. -/
theorem toQuery_eval_eq_meaning (h : q.toDataset catalog = .ok d) (ht : d.TablesFree)
    (hn : ∀ j ∈ d.joins, (j.columns.map (·.label)).Nodup)
    (hk : ∀ j ∈ d.joins, j.selector = .omitted → j.RefersToKeys) {db : Database}
    (hd : d.Suits db) :
    ∃ rows, d.toQuery.eval db = some ⟨d.labels, rows⟩ ∧ rows.Perm (d.meaning db) := by
  have hs := Query.selector_ne_omitted_of_toDataset h
  have hl : ∀ j ∈ d.joins, ∀ c ∈ j.columns, isReserved c.label = false :=
    fun j hj c hc => Query.labels_of_toDataset h hj hc
  have hmeaningful : d.toQuery.IsMeaningful (Emission.columnsIn db) :=
    Emission.isMeaningful_query hd
      (fun j hj => (Emission.nodup_joinColumns_iff (hl j hj)).mpr (hn j hj)) ht
  have hrows : (d.toQuery.run db []).rows = (d.anchors db).map (d.row db) := by
    rw [Sql.Query.rows_run]
    exact Emission.rows_query hd hs ht hl hn hk
  refine ⟨(d.toQuery.run db []).rows, ?_, ?_⟩
  · rw [Sql.Query.eval, if_pos hmeaningful, ← Emission.columns_run_query db]
    rfl
  · have hperm := (Dataset.anchors_perm hs hd.base.apart).map (d.row db)
    rw [List.map_map] at hperm
    rw [hrows]
    exact hperm

/-- A first sign-up, the orders of the user after it, and the last of them. -/
def signupOrders : Query Unit where
  select := ⟨⟨.first, ()⟩, ⟨"user_signed_up", ()⟩, [.reference ⟨"plan", ()⟩ ⟨"plan", ()⟩ ()], ()⟩
  joins := [
    ⟨⟨.after, ()⟩, ⟨.omitted, ()⟩, ⟨"order_placed", ()⟩, [],
      [.reference ⟨"user_id", ()⟩ ⟨"buyer", ()⟩ (),
        .aggregation ⟨.count, ()⟩ ⟨"amount", ()⟩ ⟨"orders", ()⟩ (),
        .aggregation ⟨.firstValue, ()⟩ ⟨"amount", ()⟩ ⟨"start", ()⟩ ()],
      some ⟨⟨"currency", ()⟩, ⟨.eq, ()⟩, ⟨.text "EUR", ()⟩, ()⟩, ()⟩,
    ⟨⟨.after, ()⟩, ⟨.last, ()⟩, ⟨"order_placed", ()⟩, [],
      [.reference ⟨"amount", ()⟩ ⟨"latest", ()⟩ (),
        .aggregation ⟨.sum, ()⟩ ⟨"amount", ()⟩ ⟨"spent", ()⟩ ()], none, ()⟩]
  place := ()

/-- Two users, one who signed up twice and one without orders. -/
def shop : Database := .ofTables [
  (["user_signed_up"], ⟨["user_id", "ts", "plan"], [
    [("user_id", .number 7), ("ts", .timestamp 2), ("plan", .text "pro")],
    [("user_id", .number 7), ("ts", .timestamp 1), ("plan", .text "free")],
    [("user_id", .number 8), ("ts", .timestamp 3), ("plan", .null)]]⟩),
  (["order_placed"], ⟨["user_id", "ts", "amount", "currency"], [
    [("user_id", .number 7), ("ts", .timestamp 5), ("amount", .number 20),
      ("currency", .text "EUR")],
    [("user_id", .number 7), ("ts", .timestamp 4), ("amount", .null), ("currency", .text "EUR")],
    [("user_id", .number 7), ("ts", .timestamp 6), ("amount", .number 30),
      ("currency", .text "USD")],
    [("user_id", .null), ("ts", .timestamp 7), ("amount", .number 9),
      ("currency", .text "EUR")]]⟩)] (by decide)

def signupOrdersDataset : Dataset :=
  (signupOrders.toDataset Catalog.demo).toOption.get (by decide +kernel)

/-- The user without orders has a row too, with a count of zero. -/
theorem signupOrders_rows :
    signupOrders.toDataset Catalog.demo = .ok signupOrdersDataset ∧ signupOrdersDataset.Suits shop ∧
      ∃ rows, signupOrdersDataset.toQuery.eval shop =
          some ⟨["plan", "buyer", "orders", "start", "latest", "spent"], rows⟩ ∧
        rows.Perm [
          [("plan", .text "free"), ("buyer", .number 7), ("orders", .number 1), ("start", .null),
            ("latest", .number 30), ("spent", .number 50)],
          [("plan", .null), ("buyer", .null), ("orders", .number 0), ("start", .null),
            ("latest", .null), ("spent", .null)]] := by
  have hd : signupOrders.toDataset Catalog.demo = .ok signupOrdersDataset := by decide +kernel
  have hs : signupOrdersDataset.Suits shop := by decide +kernel
  refine ⟨hd, hs, ?_⟩
  obtain ⟨rows, heval, hperm⟩ := toQuery_eval_eq_meaning hd (by decide +kernel) (by decide +kernel)
    (by decide +kernel) hs
  have hlabels : signupOrdersDataset.labels =
      ["plan", "buyer", "orders", "start", "latest", "spent"] := by decide +kernel
  exact ⟨rows, hlabels ▸ heval, hperm.trans (.of_eq (by decide +kernel))⟩

end EventQuery
