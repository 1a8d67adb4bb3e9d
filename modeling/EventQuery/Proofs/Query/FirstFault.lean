import EventQuery.Catalog.Demo
import EventQuery.Proofs.Query.Reported
import EventQuery.Query.Parser

/-! The clause that a query fails at. Clauses are checked one after the other, each on its own and
the base event, so the first clause that does not fit decides the fault, whatever follows it, and
the fault is reported at a node of that clause. -/

namespace EventQuery

open Outcome

variable {ρ : Type} {catalog : Catalog} {q : Query ρ} {e : Located ρ Fault}

namespace Query

/-- The query with other joins behind its base selection. -/
def withJoins (q : Query ρ) (joins : List (JoinClause ρ)) : Query ρ := ⟨q.select, joins, q.place⟩

/-- The joins up to the end of a clause. -/
def joinsThrough (q : Query ρ) : Clause → List (JoinClause ρ)
  | .base => []
  | .join i => q.joins.take (i + 1)

/-- The query fails at the clause with this fault: cut off in front of a join it fits, cut off
behind the clause it has the fault whatever joins follow, and the fault is at a node of the
clause. -/
structure FailsAt (catalog : Catalog) (q : Query ρ) (e : Located ρ Fault) (k : Clause) : Prop where
  before : ∀ i, k = .join i → (q.withJoins (q.joins.take i)).validate catalog = .ok ()
  through : ∀ more, (q.withJoins (q.joinsThrough k ++ more)).validate catalog = .error e
  node : ∃ n ∈ q.nodes, n.clause = k ∧ n.part ≠ .query ∧ n.place = e.place

/-! ## The clause of a fault -/

theorem failsAt_base (h : Validation.select catalog q.select = .error e) :
    q.FailsAt catalog e .base where
  before := nofun
  through more := bind_eq_error_iff.mpr (.inl h)
  node := by
    obtain ⟨n, hn, hplace⟩ := Validation.select_error h
    obtain ⟨hclause, hpart⟩ := SelectClause.clause_of_mem_nodes n hn
    exact ⟨n, List.mem_cons_of_mem _ (List.mem_append_left _ hn), hclause, hpart, hplace⟩

theorem failsAt_join {base : Event} {before after : List (JoinClause ρ)} {j : JoinClause ρ}
    (hselect : Validation.select catalog q.select = .ok base)
    (hjoins : q.joins = before ++ j :: after)
    (hbefore : before.forM (Validation.join catalog base) = .ok ())
    (hj : Validation.join catalog base j = .error e) :
    q.FailsAt catalog e (.join before.length) where
  before := by
    rintro i ⟨⟩
    rw [hjoins, List.take_left]
    exact bind_eq_ok_iff.mpr ⟨base, hselect, hbefore⟩
  through more := by
    have htake : q.joins.take (before.length + 1) = before ++ [j] := by
      rw [hjoins, List.take_length_add_append, List.take_succ_cons, List.take_zero]
    have hfails : (before ++ ([j] ++ more)).forM (Validation.join catalog base) = .error e := by
      rw [forM_append_of_ok hbefore]
      exact bind_eq_error_iff.mpr (.inl hj)
    rw [joinsThrough, htake, List.append_assoc]
    exact bind_eq_error_iff.mpr (.inr ⟨base, hselect, hfails⟩)
  node := by
    obtain ⟨n, hn, hplace⟩ := Validation.join_error hj before.length
    obtain ⟨hclause, hpart⟩ := JoinClause.clause_of_mem_nodes n hn
    have hat : q.joins[before.length]? = some j := by simp [hjoins]
    have hmem : n ∈ joinNodes 0 q.joins := mem_joinNodes 0 hat (by rwa [Nat.zero_add])
    exact ⟨n, List.mem_cons_of_mem _ (List.mem_append_right _ hmem), hclause, hpart, hplace⟩

theorem exists_failsAt (h : q.validate catalog = .error e) : ∃ k, q.FailsAt catalog e k := by
  rcases bind_eq_error_iff.mp h with hselect | ⟨base, hselect, hjoins⟩
  · exact ⟨.base, failsAt_base hselect⟩
  · obtain ⟨before, j, after, hsplit, hbefore, hj⟩ := exists_first_of_forM_eq_error hjoins
    exact ⟨_, failsAt_join hselect hsplit hbefore hj⟩

/-- No clause fails in front of one that the query fails at. -/
theorem FailsAt.not_in_front {k : Clause} {i : Nat} (hk : q.FailsAt catalog e k)
    (hi : q.FailsAt catalog e (.join i)) : ¬q.joinsThrough k <+: q.joins.take i := by
  rintro ⟨more, hmore⟩
  have hfails := hk.through more
  rw [hmore, hi.before i rfl] at hfails
  cases hfails

theorem FailsAt.unique {k k' : Clause} (h : q.FailsAt catalog e k) (h' : q.FailsAt catalog e k') :
    k = k' := by
  have hle {i i' : Nat} (hi : q.FailsAt catalog e (.join i))
      (hi' : q.FailsAt catalog e (.join i')) : i' ≤ i := by
    by_contra hlt
    apply hi.not_in_front hi'
    exact List.take_prefix_take_left (by omega)
  cases k with
  | base =>
    cases k' with
    | base => rfl
    | join i' => exact absurd List.nil_prefix (h.not_in_front h')
  | join i =>
    cases k' with
    | base => exact absurd List.nil_prefix (h'.not_in_front h)
    | join i' => rw [Nat.le_antisymm (hle h' h) (hle h h')]

end Query

/-- **The first clause that does not fit is the one reported.** For a query that does not fit there
is exactly one clause such that the query fits when it is cut off in front of the clause, has the
same fault when it is cut off behind it, whatever joins follow, and has the fault at a node of the
clause. -/
theorem first_unfit_clause_reported (h : q.validate catalog = .error e) :
    ∃! k, q.FailsAt catalog e k := by
  obtain ⟨k, hk⟩ := Query.exists_failsAt h
  exact ⟨k, hk, fun k' hk' => hk'.unique hk⟩

/-- The second join has no event, nor has the third. -/
def missingEventText : String :=
  "select first user_signed_up (plan as plan) join after user_logged_in (count(device) as n)\n" ++
    "join after missing (count(x) as n) join before nope (count(y) as m)"

theorem missingEvent_reported_at_second_join : ∃ q e, Query.parse missingEventText = .ok q ∧
    q.validate .demo = .error e ∧ e.value = .unknownEvent "missing" ∧
    q.FailsAt .demo e (.join 1) ∧ ∃! k, q.FailsAt .demo e k := by
  have hread : ∃ q ∈ (Query.parse missingEventText).toOption,
      q.validate .demo = .error ⟨.unknownEvent "missing", ⟨⟨1, 11⟩, ⟨1, 18⟩⟩⟩ ∧
      ∀ n ∈ q.nodes, n.place = ⟨⟨1, 11⟩, ⟨1, 18⟩⟩ → n.clause = .join 1 := by
    decide +kernel
  obtain ⟨q, hq, hfails, hnodes⟩ := hread
  have hparse : Query.parse missingEventText = .ok q := by
    cases hparse : Query.parse missingEventText with
    | error e =>
      rw [hparse] at hq
      cases hq
    | ok q' =>
      rw [hparse] at hq
      cases hq
      rfl
  obtain ⟨k, hk, -⟩ := first_unfit_clause_reported hfails
  obtain ⟨n, hn, rfl, -, hplace⟩ := hk.node
  rw [hnodes n hn hplace] at hk
  exact ⟨q, _, hparse, hfails, rfl, hk, first_unfit_clause_reported hfails⟩

end EventQuery
