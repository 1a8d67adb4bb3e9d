import EventQuery.Proofs.Number.Nearest

/-! Rounding a quotient gives the magnitude nearest to it. The quotient is scaled so that its
integer part has the digits of a mantissa and is then rounded to an integer: `IsRounded` is what the
second step does, `binaryExponent_spec` what the first one needs. -/

namespace EventQuery

/-- `m` is the integer nearest to `u`; a half goes to the even one. -/
structure IsRounded (m : Nat) (u : ℚ) : Prop where
  lower : (m : ℚ) - 1 / 2 ≤ u
  upper : u ≤ m + 1 / 2
  half : u = m - 1 / 2 ∨ u = m + 1 / 2 → m % 2 = 0

theorem IsRounded.le_of_le {m n : Nat} {u : ℚ} (h : IsRounded m u) (hn : (n : ℚ) ≤ u) : n ≤ m := by
  have hlt : (n : ℚ) < (m + 1 : ℕ) := by
    rw [Nat.cast_succ]
    linarith [h.upper]
  exact Nat.lt_succ_iff.mp (by exact_mod_cast hlt)

theorem IsRounded.le_of_lt {m n : Nat} {u : ℚ} (h : IsRounded m u) (hn : u < n) : m ≤ n := by
  have hlt : (m : ℚ) < (n + 1 : ℕ) := by
    rw [Nat.cast_succ]
    linarith [h.lower]
  exact Nat.lt_succ_iff.mp (by exact_mod_cast hlt)

theorem isRounded_roundQuotient (num : Nat) {den : Nat} (h : 0 < den) :
    IsRounded (roundQuotient num den) (num / den : ℚ) := by
  have hden : (0 : ℚ) < den := by exact_mod_cast h
  have hsplit : (num / den : ℚ) = (num / den : ℕ) + (num % den : ℕ) / den := by
    have hdivide : (den : ℚ) * (num / den : ℕ) + (num % den : ℕ) = num := by
      exact_mod_cast Nat.div_add_mod num den
    field_simp
    linarith
  have hrest_nonneg : (0 : ℚ) ≤ (num % den : ℕ) / den := by positivity
  have hrest_lt : ((num % den : ℕ) : ℚ) / den < 1 := by
    rw [div_lt_one hden]
    exact_mod_cast Nat.mod_lt num h
  have hrest_half : ((num % den : ℕ) : ℚ) / den = 1 / 2 → 2 * (num % den) = den := by
    intro hexact
    rw [div_eq_iff hden.ne'] at hexact
    have hcast : (2 * (num % den : ℕ) : ℚ) = den := by linarith
    exact_mod_cast hcast
  unfold roundQuotient
  simp only
  split
  · next hdown =>
    simp only [Bool.or_eq_true, decide_eq_true_eq, Bool.and_eq_true, beq_iff_eq] at hdown
    have htwice : (2 * (num % den : ℕ) : ℚ) ≤ den := by exact_mod_cast (by omega)
    have hle : ((num % den : ℕ) : ℚ) / den ≤ 1 / 2 := by
      rw [div_le_iff₀ hden]
      linarith
    refine ⟨by linarith, by linarith, ?_⟩
    rintro (heq | heq)
    · linarith
    · have hhalf := hrest_half (by linarith)
      omega
  · next hup =>
    simp only [Bool.or_eq_true, decide_eq_true_eq, Bool.and_eq_true, beq_iff_eq] at hup
    have htwice : (den : ℚ) ≤ 2 * (num % den : ℕ) := by exact_mod_cast (by omega)
    have hge : 1 / 2 ≤ ((num % den : ℕ) : ℚ) / den := by
      rw [le_div_iff₀ hden]
      linarith
    have hnext : ((num / den + 1 : ℕ) : ℚ) = (num / den : ℕ) + 1 := Nat.cast_succ _
    refine ⟨by linarith, by linarith, ?_⟩
    rintro (heq | heq)
    · have hhalf := hrest_half (by linarith)
      omega
    · linarith

namespace Binary64

/-! ## The exponent -/

theorem scale_eq_div (num den : Nat) (i : Int) :
    ((num * Nat.pow 2 (-i).toNat : ℕ) / (den * Nat.pow 2 i.toNat : ℕ) : ℚ) = num / den / 2 ^ i := by
  rw [zpow_eq_div]
  simp only [Nat.pow_eq]
  push_cast
  field_simp

section
variable {num den : Nat} (hn : 0 < num) (hd : 0 < den)
include hn hd

/-- The lengths of both numbers determine the exponent up to one. -/
theorem quotient_bounds : (2 : ℚ) ^ ((num.log2 : ℤ) - den.log2 - 1) < num / den ∧
    (num / den : ℚ) < 2 ^ ((num.log2 : ℤ) - den.log2 + 1) := by
  have hden : (0 : ℚ) < den := by exact_mod_cast hd
  have hnum_le : (2 : ℚ) ^ num.log2 ≤ num := by exact_mod_cast Nat.log2_self_le hn.ne'
  have hden_le : (2 : ℚ) ^ den.log2 ≤ den := by exact_mod_cast Nat.log2_self_le hd.ne'
  have hnum_lt : (num : ℚ) < 2 ^ (num.log2 + 1) := by exact_mod_cast Nat.lt_log2_self
  have hden_lt : (den : ℚ) < 2 ^ (den.log2 + 1) := by exact_mod_cast Nat.lt_log2_self
  rw [lt_div_iff₀ hden, div_lt_iff₀ hden]
  constructor
  · calc (2 : ℚ) ^ ((num.log2 : ℤ) - den.log2 - 1) * den
        < 2 ^ ((num.log2 : ℤ) - den.log2 - 1) * 2 ^ (den.log2 + 1) :=
          mul_lt_mul_of_pos_left hden_lt (by positivity)
      _ = 2 ^ num.log2 := by
          rw [← zpow_natCast, ← zpow_natCast, ← zpow_add₀ (by norm_num)]
          congr 1
          push_cast
          ring
      _ ≤ num := hnum_le
  · calc (num : ℚ) < 2 ^ (num.log2 + 1) := hnum_lt
      _ = 2 ^ ((num.log2 : ℤ) - den.log2 + 1) * 2 ^ den.log2 := by
          rw [← zpow_natCast, ← zpow_natCast, ← zpow_add₀ (by norm_num)]
          congr 1
          push_cast
          ring
      _ ≤ 2 ^ ((num.log2 : ℤ) - den.log2 + 1) * den :=
          mul_le_mul_of_nonneg_left hden_le (by positivity)

theorem binaryExponent_spec : (2 : ℚ) ^ binaryExponent num den ≤ num / den ∧
    (num / den : ℚ) < 2 ^ (binaryExponent num den + 1) := by
  obtain ⟨hlow, hhigh⟩ := quotient_bounds hn hd
  have hden : (0 : ℚ) < den := by exact_mod_cast hd
  have hcompare (i : Int) : den * Nat.pow 2 i.toNat ≤ num * Nat.pow 2 (-i).toNat ↔
      (2 : ℚ) ^ i ≤ num / den := by
    have hscaled : (0 : ℚ) < (den * Nat.pow 2 i.toNat : ℕ) := by
      simp only [Nat.pow_eq]
      positivity
    rw [← one_le_div (show (0 : ℚ) < 2 ^ i by positivity), ← scale_eq_div, one_le_div hscaled]
    exact_mod_cast Iff.rfl
  unfold binaryExponent
  simp only [hcompare]
  split
  · next hle => exact ⟨hle, hhigh⟩
  · next hlt =>
    rw [sub_add_cancel]
    exact ⟨hlow.le, not_le.mp hlt⟩

end

/-! ## The mantissa -/

theorem magnitude_add {m : Nat} {q : Int} (hq : -1074 ≤ q) (hm : m < 2 * Nat.pow 2 52)
    (h : -1074 < q → Nat.pow 2 52 ≤ m) :
    magnitude ((q + 1074).toNat * Nat.pow 2 52 + m) = ⟨m, q⟩ := by
  have hpow : Nat.pow 2 52 = 4503599627370496 := by norm_num
  rcases Nat.lt_or_ge m (Nat.pow 2 52) with hlt | hle
  · obtain rfl : q = -1074 := by omega
    simpa using magnitude_of_lt hlt
  · rw [magnitude_of_le (by omega)]
    rw [hpow] at hle hm ⊢
    congr 1 <;> omega

/-- The mantissa that rounding carries beyond its digits is the first one of the next run. -/
theorem magnitude_add_carry {q : Int} (hq : -1074 ≤ q) :
    magnitude ((q + 1074).toNat * Nat.pow 2 52 + 2 * Nat.pow 2 52) = ⟨Nat.pow 2 52, q + 1⟩ := by
  have hpow : Nat.pow 2 52 = 4503599627370496 := by norm_num
  have hrank : (q + 1074).toNat * Nat.pow 2 52 + 2 * Nat.pow 2 52 =
      (q + 1074 + 1).toNat * Nat.pow 2 52 + Nat.pow 2 52 := by
    rw [hpow]
    omega
  have hshift : q + 1074 + 1 = q + 1 + 1074 := by ring
  rw [hrank, hshift]
  exact magnitude_add (by omega) (by decide) fun _ => le_rfl

namespace Magnitude

theorem upper_eq (m : Nat) (q : Int) : upper ⟨m, q⟩ = (m + 1 / 2) * 2 ^ q := by
  rw [upper, zpow_sub₀ (by norm_num)]
  push_cast
  ring

theorem lower_eq_of_wide {m : Nat} {q : Int} (hm : 0 < m) (h : narrowBelow ⟨m, q⟩ = false) :
    lower ⟨m, q⟩ = (m - 1 / 2) * 2 ^ q := by
  have hbelow : ((4 * m - 2 : ℕ) : ℚ) = 4 * m - 2 := by
    rw [Nat.cast_sub (by omega)]
    push_cast
    rfl
  rw [lower, below, h, if_neg Bool.false_ne_true, hbelow, zpow_sub₀ (by norm_num)]
  ring

theorem lower_lt_of_narrow {m : Nat} {q : Int} (h : narrowBelow ⟨m, q⟩ = true) :
    lower ⟨m, q⟩ < m * 2 ^ q := by
  have hm : m ≠ 0 := by
    rintro rfl
    exact absurd h (by simp [narrowBelow])
  rw [show (m : ℚ) * 2 ^ q = value ⟨m, q⟩ from rfl, value_eq_quarters, lower]
  exact mul_lt_mul_of_pos_right (by exact_mod_cast below_lt hm) (by positivity)

theorem isNearest_of_isRounded {m : Nat} {q : Int} {u : ℚ} (h : IsRounded m u) (hu : 0 ≤ u)
    (hnarrow : narrowBelow ⟨m, q⟩ = true → (m : ℚ) ≤ u) : IsNearest ⟨m, q⟩ (u * 2 ^ q) := by
  have hscale : (0 : ℚ) < 2 ^ q := by positivity
  have hupper : u * 2 ^ q ≤ upper ⟨m, q⟩ := by
    rw [upper_eq]
    exact mul_le_mul_of_nonneg_right h.upper hscale.le
  have hends : u * 2 ^ q = upper ⟨m, q⟩ → m % 2 = 0 := by
    intro heq
    rw [upper_eq] at heq
    exact h.half (.inr (mul_right_cancel₀ hscale.ne' heq))
  -- Zero has no neighbour below, and a power of two has one that is nearer than the one above.
  rcases Nat.eq_zero_or_pos m with rfl | hm
  · have hlower : lower ⟨0, q⟩ = 0 := by simp [lower, below, narrowBelow]
    exact ⟨hlower.symm ▸ mul_nonneg hu hscale.le, hupper, fun _ => rfl⟩
  cases hb : narrowBelow ⟨m, q⟩ with
  | true =>
    have hlower : lower ⟨m, q⟩ < u * 2 ^ q :=
      (lower_lt_of_narrow hb).trans_le (mul_le_mul_of_nonneg_right (hnarrow hb) hscale.le)
    exact ⟨hlower.le, hupper, fun hend => hends (hend.resolve_left hlower.ne')⟩
  | false =>
    have hlower := lower_eq_of_wide hm hb
    refine ⟨hlower.symm ▸ mul_le_mul_of_nonneg_right h.lower hscale.le, hupper, ?_⟩
    rintro (heq | heq)
    · rw [hlower] at heq
      exact h.half (.inl (mul_right_cancel₀ hscale.ne' heq))
    · exact hends heq

/-- A number just below the carry is nearest to the magnitude that the carry leads to. -/
theorem isNearest_carry {q : Int} {u : ℚ} (hq : -1074 ≤ q)
    (h : IsRounded (2 * Nat.pow 2 52) u) (hu : u < (2 * Nat.pow 2 52 : ℕ)) :
    IsNearest ⟨Nat.pow 2 52, q + 1⟩ (u * 2 ^ q) := by
  have hscale : (0 : ℚ) < 2 ^ q := by positivity
  -- The lower end lies halfway to the greatest mantissa of the run before.
  refine ⟨?_, ?_, fun _ => (by decide : Nat.pow 2 52 % 2 = 0)⟩
  · rw [lower_two_pow hq, upper_eq]
    refine mul_le_mul_of_nonneg_right (le_trans (le_of_eq ?_) h.lower) hscale.le
    rw [Nat.cast_sub (by norm_num)]
    push_cast
    ring
  · rw [upper_eq, zpow_add_one₀ (by norm_num)]
    push_cast at hu ⊢
    nlinarith

end Magnitude

/-- A number that has the digits of a mantissa in front of its point, or fewer at the least
exponent, is rounded to a mantissa. -/
theorem isNearest_magnitude_add {m : Nat} {q : Int} {u : ℚ} (hq : -1074 ≤ q) (h : IsRounded m u)
    (hu : 0 ≤ u) (hlt : u < (2 * Nat.pow 2 52 : ℕ)) (hge : -1074 < q → (Nat.pow 2 52 : ℕ) ≤ u) :
    (magnitude ((q + 1074).toNat * Nat.pow 2 52 + m)).IsNearest (u * 2 ^ q) := by
  rcases (h.le_of_lt hlt).lt_or_eq with hm | rfl
  · rw [magnitude_add hq hm fun hgt => h.le_of_le (hge hgt)]
    refine Magnitude.isNearest_of_isRounded h hu fun hnarrow => ?_
    simp only [Magnitude.narrowBelow, Bool.and_eq_true, beq_iff_eq, decide_eq_true_eq] at hnarrow
    rw [hnarrow.1]
    exact hge hnarrow.2
  · rw [magnitude_add_carry hq]
    exact Magnitude.isNearest_carry hq h hlt

/-- **The nearest rank is nearest.** -/
theorem isNearest_nearestRank {num den : Nat} (hn : 0 < num) (hd : 0 < den) :
    (magnitude (nearestRank num den)).IsNearest (num / den : ℚ) := by
  obtain ⟨hlow, hhigh⟩ := binaryExponent_spec hn hd
  obtain ⟨q, hq⟩ : ∃ q, q = max (binaryExponent num den - 52) (-1074) := ⟨_, rfl⟩
  have hscale : (0 : ℚ) < 2 ^ q := by positivity
  have hround := isRounded_roundQuotient (num * Nat.pow 2 (-q).toNat)
    (Nat.mul_pos hd (Nat.pow_pos (by decide)) : 0 < den * Nat.pow 2 q.toNat)
  rw [scale_eq_div] at hround
  have hlt : (num / den / 2 ^ q : ℚ) < (2 * Nat.pow 2 52 : ℕ) := by
    have hcarry : ((2 * Nat.pow 2 52 : ℕ) : ℚ) = 2 ^ (53 : ℤ) := by norm_num
    rw [div_lt_iff₀ hscale, hcarry, ← zpow_add₀ (by norm_num)]
    exact hhigh.trans_le (zpow_le_zpow_right₀ (by norm_num) (by omega))
  have hge : -1074 < q → (Nat.pow 2 52 : ℕ) ≤ (num / den / 2 ^ q : ℚ) := by
    intro hgt
    have hfirst : ((Nat.pow 2 52 : ℕ) : ℚ) = 2 ^ (52 : ℤ) := by norm_num
    have hexponent : 52 + q = binaryExponent num den := by omega
    rw [le_div_iff₀ hscale, hfirst, ← zpow_add₀ (by norm_num), hexponent]
    exact hlow
  have hnearest := isNearest_magnitude_add (by omega) hround (by positivity) hlt hge
  rw [div_mul_cancel₀ _ hscale.ne', hq] at hnearest
  exact hnearest

end Binary64

end EventQuery
