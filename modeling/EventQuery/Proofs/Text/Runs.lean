import Mathlib.Data.List.TakeWhile

/-! Characters of one class in a text. What is true of the ASCII characters one by one is true of
all of them; a run of characters of one class is told from what is behind it. -/

namespace EventQuery.Text

/-! ## ASCII characters -/

theorem forall_ascii {p : Char → Prop} (h : ∀ n < 128, p (Char.ofNat n)) {c : Char}
    (hc : c.toNat < 128) : p c := by
  have hp := h c.toNat hc
  rwa [Char.ofNat_toNat] at hp

theorem toNat_lt_of_isDigit {c : Char} (h : c.isDigit = true) : c.toNat < 128 := by
  simp only [Char.isDigit, Bool.and_eq_true, decide_eq_true_eq, UInt32.le_iff_toNat_le] at h
  exact Nat.lt_of_le_of_lt h.2 (by decide)

/-! ## Runs -/

/-- A run of members of one class ends where the class does. -/
theorem takeWhile_append_of_head? {α : Type} {p : α → Bool} {cs rest : List α}
    (hcs : ∀ c ∈ cs, p c = true) (hrest : ∀ c ∈ rest.head?, p c = false) :
    (cs ++ rest).takeWhile p = cs := by
  rw [List.takeWhile_append_of_pos hcs]
  cases rest with
  | nil => simp
  | cons d rest => simp [hrest d rfl]

theorem dropWhile_append_of_head? {p : Char → Bool} {cs rest : List Char}
    (hcs : ∀ c ∈ cs, p c = true) (hrest : ∀ c ∈ rest.head?, p c = false) :
    (cs ++ rest).dropWhile p = rest := by
  rw [List.dropWhile_append_of_pos hcs]
  cases rest with
  | nil => rfl
  | cons d rest => simp [hrest d rfl]

/-- The longest run of a class of characters, and what is behind it. -/
theorem exists_run (p : Char → Bool) (cs : List Char) : ∃ run tail, cs = run ++ tail ∧
    cs.takeWhile p = run ∧ (∀ c ∈ run, p c = true) ∧ ∀ c ∈ tail.head?, p c = false := by
  refine ⟨_, _, List.takeWhile_append_dropWhile.symm, rfl, fun c hc => List.mem_takeWhile_imp hc,
    fun c hc => ?_⟩
  have hhead := List.head?_dropWhile_not p cs
  rwa [hc] at hhead

end EventQuery.Text
