import EventQuery.Outcome
import Mathlib.Data.List.Forall2

/-! Computations that give a result or stop at their first fault: when a sequence of them gives a
result, and which fault it stops at. -/

namespace EventQuery.Outcome

variable {ε α β : Type}

theorem bind_eq_error_iff {x : Except ε α} {f : α → Except ε β} {e : ε} :
    x >>= f = .error e ↔ x = .error e ∨ ∃ a, x = .ok a ∧ f a = .error e := by
  cases x with
  | error e' =>
    refine ⟨fun h => .inl (by cases h; rfl), ?_⟩
    rintro (h | ⟨_, h, _⟩)
    · cases h; rfl
    · cases h
  | ok a =>
    refine ⟨fun h => .inr ⟨a, rfl, h⟩, ?_⟩
    rintro (h | ⟨_, ha, h⟩)
    · cases h
    · cases ha
      exact h

/-- A check in front of a computation. -/
theorem seq_eq_ok_iff {x : Except ε Unit} {f : Unit → Except ε β} {b : β} :
    x >>= f = .ok b ↔ x = .ok () ∧ f () = .ok b := by
  rw [bind_eq_ok_iff]
  exact ⟨fun ⟨_, hx, h⟩ => ⟨hx, h⟩, fun ⟨hx, h⟩ => ⟨(), hx, h⟩⟩

theorem mapError_eq_error_iff {ε' : Type} {x : Except ε α} {f : ε → ε'} {e' : ε'} :
    x.mapError f = .error e' ↔ ∃ e, x = .error e ∧ f e = e' := by
  cases x with
  | error e =>
    refine ⟨fun h => ⟨e, rfl, Except.error.inj h⟩, ?_⟩
    rintro ⟨_, h, rfl⟩
    cases h
    rfl
  | ok a => exact ⟨nofun, fun ⟨_, h, _⟩ => nomatch h⟩

theorem forM_eq_ok_iff {f : α → Except ε Unit} {l : List α} :
    l.forM f = .ok () ↔ ∀ x ∈ l, f x = .ok () := by
  induction l with
  | nil => exact ⟨fun _ => nofun, fun _ => rfl⟩
  | cons y l ih =>
    rw [show (y :: l).forM f = (f y >>= fun _ => l.forM f) from rfl, seq_eq_ok_iff, ih,
      List.forall_mem_cons]

/-- Checks that pass may be left out in front of others. -/
theorem forM_append_of_ok {f : α → Except ε Unit} {l : List α} (h : l.forM f = .ok ())
    (more : List α) : (l ++ more).forM f = more.forM f := by
  induction l with
  | nil => rfl
  | cons y l ih =>
    rw [show (y :: l).forM f = (f y >>= fun _ => l.forM f) from rfl, seq_eq_ok_iff] at h
    rw [List.cons_append, show (y :: (l ++ more)).forM f = (f y >>= fun _ => (l ++ more).forM f)
      from rfl, h.1, ok_bind, ih h.2]

/-- A sequence of checks stops at the first one that fails. -/
theorem exists_first_of_forM_eq_error {f : α → Except ε Unit} {l : List α} {e : ε}
    (h : l.forM f = .error e) : ∃ before x after, l = before ++ x :: after ∧
      before.forM f = .ok () ∧ f x = .error e := by
  induction l with
  | nil => cases h
  | cons y l ih =>
    rw [show (y :: l).forM f = (f y >>= fun _ => l.forM f) from rfl, bind_eq_error_iff] at h
    rcases h with h | ⟨_, hy, h⟩
    · exact ⟨[], y, l, rfl, rfl, h⟩
    · obtain ⟨before, x, after, rfl, hbefore, hx⟩ := ih h
      exact ⟨y :: before, x, after, rfl, seq_eq_ok_iff.mpr ⟨hy, hbefore⟩, hx⟩

/-- A sequence of checks fails with the fault of the first that does. -/
theorem forM_eq_error_iff {f : α → Except ε Unit} {l : List α} {e : ε} :
    l.forM f = .error e ↔ ∃ before x after, l = before ++ x :: after ∧
      (∀ y ∈ before, f y = .ok ()) ∧ f x = .error e := by
  constructor
  · intro h
    obtain ⟨before, x, after, hl, hbefore, hx⟩ := exists_first_of_forM_eq_error h
    exact ⟨before, x, after, hl, forM_eq_ok_iff.mp hbefore, hx⟩
  · intro ⟨before, x, after, hl, hbefore, hx⟩
    rw [hl, forM_append_of_ok (forM_eq_ok_iff.mpr hbefore)]
    exact bind_eq_error_iff.mpr (.inl hx)

theorem exists_of_forM_eq_error {f : α → Except ε Unit} {l : List α} {e : ε}
    (h : l.forM f = .error e) : ∃ x ∈ l, f x = .error e := by
  obtain ⟨before, x, after, rfl, -, hx⟩ := exists_first_of_forM_eq_error h
  exact ⟨x, by simp, hx⟩

/-- The results stand in the order of what they come from. -/
theorem mapM_eq_ok_iff {f : α → Except ε β} {l : List α} {r : List β} :
    l.mapM f = .ok r ↔ List.Forall₂ (fun x y => f x = .ok y) l r := by
  induction l generalizing r with
  | nil =>
    rw [List.mapM_nil, pure_eq_ok_iff, List.forall₂_nil_left_iff]
    exact eq_comm
  | cons x l ih =>
    simp only [List.mapM_cons, bind_eq_ok_iff, pure_eq_ok_iff, ih, List.forall₂_cons_left_iff]
    constructor
    · rintro ⟨y, hy, ys, hys, rfl⟩
      exact ⟨y, ys, hy, hys, rfl⟩
    · rintro ⟨y, ys, hy, hys, rfl⟩
      exact ⟨y, hy, ys, hys, rfl⟩

/-- What was made from a list was made from one of its members. -/
theorem exists_of_forall₂ {R : α → β → Prop} {l : List α} {r : List β} (h : List.Forall₂ R l r)
    {y : β} (hy : y ∈ r) : ∃ x ∈ l, R x y := by
  induction h with
  | nil => cases hy
  | cons hx _ ih =>
    rcases List.mem_cons.mp hy with rfl | hy
    · exact ⟨_, List.mem_cons_self, hx⟩
    · obtain ⟨x, hmem, hx⟩ := ih hy
      exact ⟨x, List.mem_cons_of_mem _ hmem, hx⟩

theorem exists_getElem?_of_forall₂ {R : α → β → Prop} {l : List α} {r : List β}
    (h : List.Forall₂ R l r) {i : Nat} {x : α} (hx : l[i]? = some x) :
    ∃ y, r[i]? = some y ∧ R x y := by
  induction h generalizing i with
  | nil => cases hx
  | cons hxy _ ih =>
    cases i with
    | zero =>
      cases hx
      exact ⟨_, rfl, hxy⟩
    | succ i => exact ih hx

theorem map_eq_of_forall₂ {γ : Type} {R : α → β → Prop} {l : List α} {r : List β} {f : α → γ}
    {g : β → γ} (h : List.Forall₂ R l r) (hfg : ∀ x y, R x y → g y = f x) : r.map g = l.map f := by
  induction h with
  | nil => rfl
  | cons hx _ ih => rw [List.map_cons, List.map_cons, ih, hfg _ _ hx]

/-- A sequence gives a result if each of its steps does. -/
theorem exists_mapM_eq_ok_iff {f : α → Except ε β} {l : List α} :
    (∃ r, l.mapM f = .ok r) ↔ ∀ x ∈ l, ∃ y, f x = .ok y := by
  induction l with
  | nil => exact ⟨fun _ => nofun, fun _ => ⟨[], rfl⟩⟩
  | cons x l ih =>
    simp only [List.mapM_cons, bind_eq_ok_iff, pure_eq_ok_iff, List.forall_mem_cons, ← ih]
    constructor
    · rintro ⟨_, y, hy, ys, hys, -⟩
      exact ⟨⟨y, hy⟩, ys, hys⟩
    · rintro ⟨⟨y, hy⟩, ys, hys⟩
      exact ⟨_, y, hy, ys, hys, rfl⟩

/-- The fault is that of the first element that has one. -/
theorem mapM_eq_error_iff {f : α → Except ε β} {l : List α} {e : ε} :
    l.mapM f = .error e ↔ ∃ before x after, l = before ++ x :: after ∧
      (∀ y ∈ before, ∃ z, f y = .ok z) ∧ f x = .error e := by
  induction l with
  | nil =>
    refine ⟨nofun, ?_⟩
    rintro ⟨before, x, after, h, -⟩
    exact absurd h (by simp)
  | cons y l ih =>
    rw [List.mapM_cons, bind_eq_error_iff]
    constructor
    · rintro (hy | ⟨z, hz, hl⟩)
      · exact ⟨[], y, l, rfl, nofun, hy⟩
      · rcases bind_eq_error_iff.mp hl with hl | ⟨_, _, h⟩
        · obtain ⟨before, x, after, rfl, hb, hx⟩ := ih.mp hl
          refine ⟨y :: before, x, after, rfl, fun w hw => ?_, hx⟩
          rcases List.mem_cons.mp hw with rfl | hw
          · exact ⟨z, hz⟩
          · exact hb w hw
        · cases h
    · rintro ⟨before, x, after, h, hb, hx⟩
      cases before with
      | nil =>
        obtain ⟨rfl, rfl⟩ := List.cons.inj h
        exact .inl hx
      | cons w before =>
        obtain ⟨rfl, rfl⟩ := List.cons.inj h
        obtain ⟨z, hz⟩ := hb y List.mem_cons_self
        refine .inr ⟨z, hz, bind_eq_error_iff.mpr (.inl (ih.mpr ?_))⟩
        exact ⟨before, x, after, rfl, fun w hw => hb w (List.mem_cons_of_mem y hw), hx⟩

/-! ## Two outcomes that correspond -/

section
variable {ε' α' β' : Type}

/-- The result or the fault, carried over. -/
def both (f : ε → ε') (g : α → α') : Except ε α → Except ε' α'
  | .ok a => .ok (g a)
  | .error e => .error (f e)

/-- Steps that correspond make sequences that correspond. -/
theorem bind_eq_both {f : ε → ε'} {g : α → α'} {g' : β → β'} {x : Except ε α}
    {x' : Except ε' α'} {k : α → Except ε β} {k' : α' → Except ε' β'} (hx : x' = both f g x)
    (hk : ∀ a, k' (g a) = both f g' (k a)) : (x' >>= k') = both f g' (x >>= k) := by
  rw [hx]
  cases x with
  | error e => rfl
  | ok a => exact hk a

theorem mapError_eq_both {ε₁ ε₁' : Type} {f : ε → ε'} {f₁ : ε₁ → ε₁'} {g : α → α'}
    {x : Except ε α} {x' : Except ε' α'} {m : ε → ε₁} {m' : ε' → ε₁'} (hx : x' = both f g x)
    (hm : ∀ e, m' (f e) = f₁ (m e)) : x'.mapError m' = both f₁ g (x.mapError m) := by
  rw [hx]
  cases x with
  | error e => exact congrArg Except.error (hm e)
  | ok a => rfl

/-- A check that commutes with a map of what is checked does so on lists. -/
theorem forM_map_both {f : ε → ε'} {m : α → α'} {k : α → Except ε Unit} {k' : α' → Except ε' Unit}
    {l : List α} (h : ∀ a, k' (m a) = both f id (k a)) :
    (l.map m).forM k' = both f id (l.forM k) := by
  induction l with
  | nil => rfl
  | cons a l ih =>
    exact bind_eq_both (h a) fun _ => ih

theorem forM_map_eq {m : α → α'} {k : α → Except ε Unit} {k' : α' → Except ε Unit} {l : List α}
    (h : ∀ a, k' (m a) = k a) : (l.map m).forM k' = l.forM k := by
  induction l with
  | nil => rfl
  | cons a l ih => exact congrArg₂ Bind.bind (h a) (funext fun _ => ih)

theorem mapM_map_eq {m : α → α'} {k : α → Except ε β} {k' : α' → Except ε β} {l : List α}
    (h : ∀ a, k' (m a) = k a) : (l.map m).mapM k' = l.mapM k := by
  induction l with
  | nil => rfl
  | cons a l ih => rw [List.map_cons, List.mapM_cons, List.mapM_cons, h, ih]

/-- Both give a result, and the results are related, or both stop, at faults that are related. -/
inductive Alike (F : ε → ε' → Prop) (R : α → α' → Prop) : Except ε α → Except ε' α' → Prop
  | ok {a : α} {a' : α'} : R a a' → Alike F R (.ok a) (.ok a')
  | error {e : ε} {e' : ε'} : F e e' → Alike F R (.error e) (.error e')

/-- Outcomes that are the same after a map of errors and values end alike. -/
theorem alike_of_both_eq {ε₁ α₁ : Type} {f : ε → ε₁} {f' : ε' → ε₁} {g : α → α₁} {g' : α' → α₁}
    {x : Except ε α} {x' : Except ε' α'} (h : both f g x = both f' g' x') :
    Alike (fun e e' => f e = f' e') (fun a a' => g a = g' a') x x' := by
  cases x with
  | ok a =>
    cases x' with
    | ok b => exact .ok (Except.ok.inj h)
    | error e => cases h
  | error e =>
    cases x' with
    | ok b => cases h
    | error e' => exact .error (Except.error.inj h)

namespace Alike

variable {F : ε → ε' → Prop} {R : α → α' → Prop} {x : Except ε α} {x' : Except ε' α'}

theorem imp {F' : ε → ε' → Prop} {R' : α → α' → Prop} (h : Alike F R x x')
    (hF : ∀ {e e'}, F e e' → F' e e') (hR : ∀ {a a'}, R a a' → R' a a') : Alike F' R' x x' := by
  cases h with
  | ok ha => exact .ok (hR ha)
  | error he => exact .error (hF he)

theorem mapError {ε₁ ε₁' : Type} {F' : ε₁ → ε₁' → Prop} {m : ε → ε₁} {m' : ε' → ε₁'}
    (h : Alike F R x x') (hm : ∀ {e e'}, F e e' → F' (m e) (m' e')) :
    Alike F' R (x.mapError m) (x'.mapError m') := by
  cases h with
  | ok ha => exact .ok ha
  | error he => exact .error (hm he)

/-- Two sequences end alike if their first steps do and what follows does on related values. -/
theorem bind {S : β → β' → Prop} {k : α → Except ε β} {k' : α' → Except ε' β'}
    (h : Alike F R x x') (hk : ∀ {a a'}, R a a' → Alike F S (k a) (k' a')) :
    Alike F S (x >>= k) (x' >>= k') := by
  cases h with
  | ok ha => exact hk ha
  | error he => exact .error he

/-- Where one outcome is a value, the other is a related one. -/
theorem exists_eq_ok {a : α} (h : Alike F R x x') (hx : x = .ok a) :
    ∃ a', x' = .ok a' ∧ R a a' := by
  cases h with
  | ok ha =>
    cases hx
    exact ⟨_, rfl, ha⟩
  | error => cases hx

theorem refl {x : Except ε α} : Alike (· = ·) (· = ·) x x := by
  cases x with
  | ok a => exact .ok rfl
  | error e => exact .error rfl

end Alike

end

theorem optionMapM_eq_ok_iff {f : α → Except ε β} {o : Option α} {r : Option β} :
    o.mapM f = .ok r ↔ Option.Rel (fun x y => f x = .ok y) o r := by
  cases o with
  | none =>
    rw [Option.mapM_none, pure_eq_ok_iff]
    exact ⟨fun h => h ▸ .none, fun h => by cases h; rfl⟩
  | some x =>
    rw [Option.mapM_some, show some <$> f x = (f x).map some from rfl, map_eq_ok_iff]
    constructor
    · rintro ⟨y, hy, rfl⟩
      exact .some hy
    · rintro (hy | _)
      exact ⟨_, hy, rfl⟩

theorem optionMapM_eq_error_iff {f : α → Except ε β} {o : Option α} {e : ε} :
    o.mapM f = .error e ↔ ∃ x ∈ o, f x = .error e := by
  cases o with
  | none => exact ⟨nofun, fun ⟨_, h, _⟩ => nomatch h⟩
  | some x =>
    rw [Option.mapM_some, show some <$> f x = (f x).map some from rfl]
    simp only [Option.mem_def, Option.some.injEq, exists_eq_left']
    cases f x with
    | error e' => exact ⟨fun h => by cases h; rfl, fun h => by cases h; rfl⟩
    | ok y => exact ⟨nofun, nofun⟩

end EventQuery.Outcome
