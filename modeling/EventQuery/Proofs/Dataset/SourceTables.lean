import EventQuery.Proofs.Dataset.Lowering
import EventQuery.Proofs.Dataset.Meaning
import EventQuery.Proofs.Dataset.Names
import EventQuery.Proofs.Sql.Rows

/-! The source tables in the query of a dataset. A named query hides the source table of its name
from the queries behind it. The names are fixed, the tables of events are not, and nothing keeps the
two apart: the table of a joined event is read from the source unless it has the name of a query in
front of it. -/

namespace EventQuery

open Sql

/-- One of the names hides the source table that is meant. -/
def Sql.TableRef.IsHidden (t : TableRef) (names : List String) : Prop :=
  ∃ name ∈ names, t.parts = [name]

instance (t : TableRef) (names : List String) : Decidable (t.IsHidden names) :=
  inferInstanceAs (Decidable (∃ _ ∈ _, _))

theorem Sql.TableRef.relation_of_not_isHidden {db : Database} {before : List (String × Sql.Query)}
    {t : TableRef} (h : ¬t.IsHidden (before.map Prod.fst)) :
    t.relation db (Sql.Query.runCtes db before []) = db.table t.parts := by
  unfold TableRef.relation
  split
  · next name hparts =>
    have hname : name ∉ before.map Prod.fst := fun hmem => h ⟨name, hmem, hparts⟩
    rw [Sql.Query.lookup_runCtes_of_notMem hname, hparts]
    rfl
  · rfl

namespace Emission

variable {d : Dataset} {b : BaseEvent} {j : JoinedEvent}

/-- The source table of an event, under the name it goes by in a query. -/
def eventTable (e : Event) (label : String) : TableRef :=
  { TableRef.ofName e.table with label := some label }

/-- The names of the queries in front of the join of an index. -/
def namesBefore (d : Dataset) (index : Nat) : List String :=
  baseRanked :: base :: joinNames (d.joins.zipIdx.take index)

theorem split_of_mem_joinNames {joins : List (JoinedEvent × Nat)} {name : String}
    (h : name ∈ joinNames joins) : Text.split '.' name = [name] := by
  obtain ⟨p, -, rfl | rfl⟩ := mem_joinNames_iff.mp h
  · exact split_innerName p.2 p.1.selector
  · exact split_joinName p.2

theorem split_of_mem_namesBefore {index : Nat} {name : String} (h : name ∈ namesBefore d index) :
    Text.split '.' name = [name] := by
  rw [namesBefore, List.mem_cons, List.mem_cons] at h
  obtain rfl | rfl | h := h
  · rfl
  · rfl
  · exact split_of_mem_joinNames h

theorem isHidden_eventTable_iff {index : Nat} {e : Event} {label : String} :
    (eventTable e label).IsHidden (namesBefore d index) ↔ e.table ∈ namesBefore d index := by
  constructor
  · rintro ⟨name, hname, hparts⟩
    rwa [Text.eq_of_split_eq_singleton hparts]
  · intro hmem
    exact ⟨e.table, hmem, split_of_mem_namesBefore hmem⟩

/-! ## Where the tables of events stand -/

theorem ctesOf_cons (p : JoinedEvent × Nat) (joins : List (JoinedEvent × Nat)) :
    ctesOf b (p :: joins) = (innerName p.2 p.1.selector, innerQuery b p.1) ::
      (joinName p.2, outerQuery p.2 p.1) :: ctesOf b joins := by
  rw [ctesOf, List.flatMap_cons, joinCtes_eq]
  rfl

/-- A named query of some joins is one of the two of a join, and those in front of it are the
queries of the joins before. -/
theorem ctesOf_eq_append_cons {joins : List (JoinedEvent × Nat)}
    {before after : List (String × Sql.Query)} {c : String × Sql.Query}
    (h : ctesOf b joins = before ++ c :: after) :
    ∃ front p rest, joins = front ++ p :: rest ∧
      (before = ctesOf b front ∧ c = (innerName p.2 p.1.selector, innerQuery b p.1) ∨
        before = ctesOf b front ++ [(innerName p.2 p.1.selector, innerQuery b p.1)] ∧
          c = (joinName p.2, outerQuery p.2 p.1)) := by
  induction joins generalizing before with
  | nil => exact absurd h (by simp [ctesOf])
  | cons p joins ih =>
    rw [ctesOf_cons] at h
    rcases before with _ | ⟨x, _ | ⟨y, before⟩⟩
    · exact ⟨[], p, joins, rfl, .inl ⟨rfl, (List.cons.inj h).1.symm⟩⟩
    · obtain ⟨hx, h⟩ := List.cons.inj h
      exact ⟨[], p, joins, rfl, .inr ⟨by rw [← hx]; rfl, (List.cons.inj h).1.symm⟩⟩
    · obtain ⟨hx, h⟩ := List.cons.inj h
      obtain ⟨hy, h⟩ := List.cons.inj h
      obtain ⟨front, p', rest, rfl, hc⟩ := ih h
      refine ⟨p :: front, p', rest, rfl, ?_⟩
      rw [ctesOf_cons, hx, hy]
      exact hc.imp (And.imp_left fun hbefore => by rw [hbefore])
        (And.imp_left fun hbefore => by rw [hbefore]; rfl)

theorem tables_innerQuery :
    (innerQuery b j).tables = [.ofName base, eventTable j.event joined] := by
  unfold innerQuery
  split <;> rfl

theorem label_of_mem_tables_outerQuery {i : Nat} {t : TableRef} (h : t ∈ (outerQuery i j).tables) :
    t.label = none := by
  have htables : (outerQuery i j).tables = [.ofName (innerName i j.selector)] := by
    unfold outerQuery
    split <;> rfl
  rw [htables] at h
  rw [List.mem_singleton.mp h]
  rfl

/-- The table of an event stands in the first query, or in the first query of a join. -/
theorem eventTable_of_mem_tables {before after : List (String × Sql.Query)} {name : String}
    {query : Sql.Query} (h : ctes d = before ++ (name, query) :: after) {e : Event} {label : String}
    (ht : eventTable e label ∈ query.tables) :
    before = [] ∧ name = baseRanked ∨
      ∃ p ∈ d.joins.zipIdx, name = innerName p.2 p.1.selector ∧
        eventTable e label = eventTable p.1.event joined ∧
        before.map Prod.fst = namesBefore d p.2 := by
  match before, h with
  | [], h => exact .inl ⟨rfl, (congrArg Prod.fst (List.cons.inj h).1).symm⟩
  | [_], h =>
    have hq : query = rankOne baseRanked :=
      (congrArg Prod.snd (List.cons.inj (List.cons.inj h).2).1).symm
    rw [hq] at ht
    exact nomatch congrArg TableRef.label (List.mem_singleton.mp ht)
  | x :: y :: before, h =>
    obtain ⟨hx, h⟩ := List.cons.inj h
    obtain ⟨hy, h⟩ := List.cons.inj h
    obtain ⟨front, p, rest, hjoins, hc⟩ := ctesOf_eq_append_cons h
    have hindex : p.2 = front.length := by
      have hget : d.joins.zipIdx[front.length]? = some p := by simp [hjoins]
      rw [List.getElem?_zipIdx, Option.map_eq_some_iff] at hget
      obtain ⟨j, -, rfl⟩ := hget
      exact Nat.zero_add _
    rcases hc with ⟨rfl, hc⟩ | ⟨-, hc⟩
    · obtain ⟨rfl, rfl⟩ := Prod.mk.inj hc
      refine .inr ⟨p, by simp [hjoins], rfl, ?_, ?_⟩
      · rw [tables_innerQuery, List.mem_cons, List.mem_singleton] at ht
        exact ht.resolve_left fun he => nomatch congrArg TableRef.label he
      · rw [namesBefore, hjoins, hindex, List.take_left, ← names_ctesOf d.base front, ← hx, ← hy]
        rfl
    · obtain ⟨rfl, rfl⟩ := Prod.mk.inj hc
      exact nomatch label_of_mem_tables_outerQuery ht

/-- The table of an event is hidden where it is read in the first query of a join and has the name
of a query of the base rows or of an earlier join. -/
theorem isHidden_iff_of_mem_tables {before after : List (String × Sql.Query)} {name : String}
    {query : Sql.Query} (h : ctes d = before ++ (name, query) :: after) {e : Event} {label : String}
    (ht : eventTable e label ∈ query.tables) :
    (eventTable e label).IsHidden (before.map Prod.fst) ↔
      ∃ p ∈ d.joins.zipIdx, name = innerName p.2 p.1.selector ∧ e.table ∈ namesBefore d p.2 := by
  obtain ⟨rfl, rfl⟩ | ⟨p, hp, rfl, -, hnames⟩ := eventTable_of_mem_tables h ht
  · constructor
    · rintro ⟨_, hmem, -⟩
      cases hmem
    · rintro ⟨p, -, hname, -⟩
      exact absurd hname.symm (innerName_ne (by decide))
  · rw [hnames, isHidden_eventTable_iff]
    refine ⟨fun hmem => ⟨p, hp, rfl, hmem⟩, ?_⟩
    rintro ⟨p', -, hname, hmem⟩
    rwa [innerName_inj hname]

/-- The table of a joined event stands behind the queries of the joins before. -/
theorem exists_eventTable_mem_tables {p : JoinedEvent × Nat} (hp : p ∈ d.joins.zipIdx) :
    ∃ before after, ctes d =
        before ++ (innerName p.2 p.1.selector, innerQuery d.base p.1) :: after ∧
      eventTable p.1.event joined ∈ (innerQuery d.base p.1).tables := by
  obtain ⟨before, after, h, -⟩ := exists_ctes_eq (j := p.1) (i := p.2) hp
  rw [List.append_assoc, List.singleton_append] at h
  exact ⟨_, _, h, by simp [tables_innerQuery]⟩

end Emission

open Emission in
/-- **Source tables and named queries.** The table of an event, wherever it is read, is hidden by a
query in front exactly when it is read in a join and has the name of one of the queries of the base
rows or of an earlier join. Where it is not hidden it is the source table, over every database. So
all tables of events are source tables exactly when none of those of joins has such a name. -/
theorem source_tables_hidden_iff (d : Dataset) :
    (∀ before name query after, d.toQuery.ctes = before ++ (name, query) :: after →
      ∀ e label, eventTable e label ∈ query.tables →
        ((eventTable e label).IsHidden (before.map Prod.fst) ↔
          ∃ p ∈ d.joins.zipIdx, name = innerName p.2 p.1.selector ∧
            e.table ∈ namesBefore d p.2) ∧
        (¬(eventTable e label).IsHidden (before.map Prod.fst) → ∀ db : Database,
          (eventTable e label).relation db (Sql.Query.runCtes db before []) = e.relation db)) ∧
    ((∀ before name query after, d.toQuery.ctes = before ++ (name, query) :: after →
      ∀ e label, eventTable e label ∈ query.tables →
        ¬(eventTable e label).IsHidden (before.map Prod.fst)) ↔
      ∀ p ∈ d.joins.zipIdx, p.1.event.table ∉ namesBefore d p.2) := by
  refine ⟨fun before name query after hctes e label ht =>
    ⟨isHidden_iff_of_mem_tables hctes ht, fun hfree db => ?_⟩, fun hall p hp => ?_,
    fun hfree before name query after hctes e label ht => ?_⟩
  · exact TableRef.relation_of_not_isHidden hfree
  · obtain ⟨before, after, hctes, ht⟩ := exists_eventTable_mem_tables hp
    intro hmem
    exact hall _ _ _ _ hctes _ _ ht ((isHidden_iff_of_mem_tables hctes ht).mpr ⟨p, hp, rfl, hmem⟩)
  · obtain ⟨rfl, rfl⟩ | ⟨p, hp, rfl, he, hnames⟩ := eventTable_of_mem_tables hctes ht
    · rintro ⟨_, hmem, -⟩
      cases hmem
    · rw [he, hnames, isHidden_eventTable_iff]
      exact hfree p hp

/-! ## A joined table with the name of the base rows -/

def accountEvent : Event :=
  ⟨"account_opened", "event_id", "ts", [⟨"user", "user_id", true⟩], [], "accounts"⟩

/-- An event whose table has the name that the base rows take. -/
def visitEvent : Event :=
  ⟨"visit", "event_id", "ts", [⟨"user", "user_id", true⟩], [], "base"⟩

def visitCatalog : Catalog := .unchecked [accountEvent, visitEvent]

/-- The first account of a user with the number of visits after it. -/
def visitsOfAccounts : Query Unit where
  select := ⟨⟨.first, ()⟩, ⟨"account_opened", ()⟩, [.reference ⟨"user_id", ()⟩ ⟨"user", ()⟩ ()], ()⟩
  joins := [⟨⟨.after, ()⟩, ⟨.omitted, ()⟩, ⟨"visit", ()⟩, [],
    [.aggregation ⟨.count, ()⟩ ⟨"event_id", ()⟩ ⟨"visits", ()⟩ ()], none, ()⟩]
  place := ()

def visitDataset : Dataset where
  base := ⟨accountEvent, .first, "user_id", [⟨"user", "user_id", "user_id"⟩]⟩
  joins := [⟨visitEvent, .after, .omitted, [⟨"user", "user_id", "user_id"⟩],
    [⟨"visits", .aggregation .count "event_id" "event_id"⟩], none⟩]

/-- A user who opened an account and visited later. -/
def visits : Database := .ofTables [
  (["accounts"], ⟨["event_id", "user_id", "ts"],
    [[("event_id", .number 1), ("user_id", .number 7), ("ts", .timestamp 1)]]⟩),
  (["base"], ⟨["event_id", "user_id", "ts"],
    [[("event_id", .number 2), ("user_id", .number 7), ("ts", .timestamp 2)]]⟩)] (by decide)

/-- The base rows are read instead of the visits, and the visit after the account is not counted. -/
theorem visits_hidden_by_base :
    Catalog.ofEvents [accountEvent, visitEvent] = .ok visitCatalog ∧
      visitsOfAccounts.validate visitCatalog = .ok () ∧
      visitsOfAccounts.toDataset visitCatalog = .ok visitDataset ∧
      (∃ before name query after, visitDataset.toQuery.ctes = before ++ (name, query) :: after ∧
        ∃ label, Emission.eventTable visitEvent label ∈ query.tables ∧
          (Emission.eventTable visitEvent label).IsHidden (before.map Prod.fst)) ∧
      (visitDataset.toQuery.eval visits).map (·.rows) =
        some [[("user", .number 7), ("visits", .number 0)]] ∧
      visitDataset.meaning visits = [[("user", .number 7), ("visits", .number 1)]] := by
  refine ⟨rfl, by decide +kernel, by decide +kernel, ?_, by decide +kernel, by decide +kernel⟩
  refine ⟨[_, _], _, _, _, rfl, Emission.joined, ?_⟩
  decide +kernel

end EventQuery
