import EventQuery.Catalog.Demo
import EventQuery.Compilation
import EventQuery.Editor.Diagnostic
import EventQuery.Proofs.Catalog.Soundness
import EventQuery.Proofs.Dataset.Lowering

/-! Checking a query and lowering it are two passes over the same clauses. They accept the same
queries, but for filters that compare with a number that is not finite, which only lowering
refuses. -/

namespace EventQuery

open Outcome

variable {ρ : Type} {catalog : Catalog}

def Query.LiteralsFinite (q : Query ρ) : Prop := ∀ j ∈ q.joins, j.LiteralFinite

section
variable (hc : ∀ e ∈ catalog.events, e.entities ≠ [])
include hc

theorem Lowering.exists_base_iff_fits {s : SelectClause ρ} {event : Event} :
    (∃ b, Lowering.base catalog s = .ok b ∧ b.event = event) ↔ s.Fits catalog event := by
  rw [exists_base_iff]
  refine ⟨And.left, fun h => ⟨h, ?_⟩⟩
  exact Event.partitionEntity?_isSome (hc event (Catalog.mem_of_find? h.found))

theorem Query.exists_toDataset_iff {q : Query ρ} :
    (∃ d, q.toDataset catalog = .ok d) ↔ q.validate catalog = .ok () ∧ q.LiteralsFinite := by
  simp only [toDataset_eq_ok_iff, validate_eq_ok_iff]
  constructor
  · rintro ⟨d, hb, hj⟩
    have hjoins : ∀ j ∈ q.joins, _ := fun j hmem => Lowering.exists_join_iff.mp
      (exists_mapM_eq_ok_iff.mp ⟨_, mapM_eq_ok_iff.mpr hj⟩ j hmem)
    refine ⟨⟨d.base.event, ?_, fun j h => (hjoins j h).1⟩, fun j h => (hjoins j h).2⟩
    exact (Lowering.exists_base_iff_fits hc).mp ⟨_, hb, rfl⟩
  · rintro ⟨⟨base, h⟩, hl⟩
    obtain ⟨b, hb, rfl⟩ := (Lowering.exists_base_iff_fits hc).mpr h.select
    obtain ⟨js, hj⟩ := exists_mapM_eq_ok_iff.mpr fun j hmem =>
      Lowering.exists_join_iff.mpr ⟨h.joins j hmem, hl j hmem⟩
    exact ⟨⟨b, js⟩, hb, mapM_eq_ok_iff.mp hj⟩

/-- A query that fits stops at the first join that compares with a number that is not finite. -/
theorem Query.toDataset_eq_error {q : Query ρ} {fault : Fault}
    (hv : q.validate catalog = .ok ()) (he : q.toDataset catalog = .error fault) :
    ∃ before j after, q.joins = before ++ j :: after ∧ (∀ i ∈ before, i.LiteralFinite) ∧
      ∃ f ∈ j.filter, f.literal.value.isFinite = false ∧
        fault = .nonFiniteLiteral f.literal.value := by
  obtain ⟨base, h⟩ := validate_eq_ok_iff.mp hv
  obtain ⟨b, hb, rfl⟩ := (Lowering.exists_base_iff_fits hc).mpr h.select
  rw [Query.toDataset, hb, ok_bind] at he
  rcases bind_eq_error_iff.mp he with he | ⟨_, _, he⟩
  · obtain ⟨before, j, after, hj, hbefore, he⟩ := mapM_eq_error_iff.mp he
    obtain ⟨event, hfit⟩ := h.joins j (by simp [hj])
    refine ⟨before, j, after, hj, fun i hi => ?_, Lowering.join_eq_error hfit he⟩
    exact (Lowering.exists_join_iff.mp (hbefore i hi)).2
  · cases he

end

theorem Editor.diagnostics_eq_nil_iff {text : String} :
    Editor.diagnostics catalog text = [] ↔
      ∃ q, Query.parse text = .ok q ∧ q.validate catalog = .ok () := by
  unfold Editor.diagnostics
  cases Query.parse text with
  | error e => simp
  | ok q =>
    simp only [Except.ok.injEq, exists_eq_left']
    cases q.validate catalog <;> simp

theorem compileDataset_of_validate {text : String} {q : Query Span}
    (hp : Query.parse text = .ok q) (hv : q.validate catalog = .ok ()) :
    compileDataset catalog text = (q.toDataset catalog).mapError .lowering := by
  unfold compileDataset
  rw [hp]
  show ((q.validate catalog).mapError CompileError.invalid >>= fun _ => _) = _
  rw [hv]
  rfl

/-- A text without diagnostics is compiled, or its dataset has a fault. -/
theorem compile_eq_error {text : String} {layout : Sql.Layout} {e : CompileError}
    (hd : Editor.diagnostics catalog text = []) (he : compile catalog layout text = .error e) :
    ∃ q fault, q.validate catalog = .ok () ∧ (q : Query Span).toDataset catalog = .error fault ∧
      e = .lowering fault := by
  obtain ⟨q, hp, hv⟩ := Editor.diagnostics_eq_nil_iff.mp hd
  rcases bind_eq_error_iff.mp he with he | ⟨_, _, he⟩
  · rw [compileDataset_of_validate hp hv] at he
    cases hl : q.toDataset catalog with
    | error fault =>
      rw [hl] at he
      exact ⟨q, fault, hv, hl, by cases he; rfl⟩
    | ok d =>
      rw [hl] at he
      cases he
  · cases he

/-- **Checking and lowering agree.** A query over events that all have an entity is lowered exactly
when it fits and its filters compare with finite numbers; if it fits and is not lowered, the fault
is the literal of the first join with such a filter. So a text without diagnostics, over a catalog
that was checked, is compiled unless it has such a literal. -/
theorem validate_agrees_with_toDataset (catalog : Catalog)
    (hc : ∀ e ∈ catalog.events, e.entities ≠ []) (q : Query ρ) :
    ((∃ d, q.toDataset catalog = .ok d) ↔ q.validate catalog = .ok () ∧ q.LiteralsFinite) ∧
    (∀ fault, q.validate catalog = .ok () → q.toDataset catalog = .error fault →
      ∃ before j after, q.joins = before ++ j :: after ∧ (∀ i ∈ before, i.LiteralFinite) ∧
        ∃ f ∈ j.filter, f.literal.value.isFinite = false ∧
          fault = .nonFiniteLiteral f.literal.value) ∧
    ∀ events checked text layout e, Catalog.ofEvents events = .ok checked →
      Editor.diagnostics checked text = [] → compile checked layout text = .error e →
      ∃ literal : Literal, literal.isFinite = false ∧
        e = .lowering (.nonFiniteLiteral literal) := by
  refine ⟨Query.exists_toDataset_iff hc, fun _ => Query.toDataset_eq_error hc, ?_⟩
  intro events checked text layout e hchecked hd he
  have hne : ∀ x ∈ checked.events, x.entities ≠ [] := fun x hx =>
    Event.entities_ne_nil_of_check (Catalog.check_of_ofEvents hchecked x hx)
  obtain ⟨q, fault, hv, hl, rfl⟩ := compile_eq_error hd he
  obtain ⟨_, _, _, _, _, f, _, hf, rfl⟩ := Query.toDataset_eq_error hne hv hl
  exact ⟨_, hf, rfl⟩

/-- A first sign-up and the orders after it of an amount below infinity. -/
def boundlessOrders : Query Unit where
  select := ⟨⟨.first, ()⟩, ⟨"user_signed_up", ()⟩,
    [.reference ⟨"plan", ()⟩ ⟨"plan", ()⟩ ()], ()⟩
  joins := [⟨⟨.after, ()⟩, ⟨.omitted, ()⟩, ⟨"order_placed", ()⟩, [],
    [.aggregation ⟨.count, ()⟩ ⟨"order_id", ()⟩ ⟨"orders", ()⟩ ()],
    some ⟨⟨"amount", ()⟩, ⟨.lt, ()⟩, ⟨.real (.infinite false), ()⟩, ()⟩, ()⟩]
  place := ()

theorem boundlessOrders_not_lowered :
    (∀ e ∈ Catalog.demo.events, e.entities ≠ []) ∧
      boundlessOrders.validate Catalog.demo = .ok () ∧
      ¬∃ d, boundlessOrders.toDataset Catalog.demo = .ok d := by
  have hc : ∀ e ∈ Catalog.demo.events, e.entities ≠ [] := by decide
  refine ⟨hc, by decide +kernel, fun h => ?_⟩
  have hl := ((validate_agrees_with_toDataset Catalog.demo hc boundlessOrders).1.mp h).2
  exact absurd (hl _ (List.mem_singleton_self _) _ rfl) (by decide)

end EventQuery
