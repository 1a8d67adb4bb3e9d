import EventQuery.Number.Shortest
import Mathlib.Algebra.Order.Field.Power
import Mathlib.Data.Nat.Cast.Order.Field
import Mathlib.Order.Compare
import Mathlib.Tactic.FieldSimp
import Mathlib.Tactic.Linarith
import Mathlib.Tactic.NormNum
import Mathlib.Tactic.Ring

/-! The decimal that is written for a magnitude is nearest to it: it lies between the points halfway
to the two neighbours. These intervals meet only in their ends, and an end belongs to the magnitude
with the even mantissa, so different ranks are written with different values. -/

namespace EventQuery

def Decimal.value (d : Decimal) : ℚ := d.digits * 10 ^ d.exponent

/-! ## Powers with a sign in the exponent -/

theorem zpow_eq_div (b : ℚ) (i : ℤ) : b ^ i = b ^ i.toNat / b ^ (-i).toNat := by
  obtain ⟨n, rfl | rfl⟩ := i.eq_nat_or_neg
  · simp
  · simp

theorem Decimal.value_strip (fuel : Nat) (d : Decimal) : (d.strip fuel).value = d.value := by
  induction fuel generalizing d with
  | zero => rfl
  | succ fuel ih =>
    rw [strip]
    split
    · next hzero =>
      have hten : d.digits = 10 * (d.digits / 10) := by simp at hzero; omega
      have hcast : (d.digits : ℚ) = 10 * (d.digits / 10 : ℕ) := by exact_mod_cast hten
      rw [ih, value, value, hcast, zpow_add_one₀ (by norm_num)]
      ring
    · rfl

namespace Binary64

namespace Magnitude

variable {x : Magnitude}

def value (x : Magnitude) : ℚ := x.mantissa * 2 ^ x.exponent

/-- Halfway to the neighbour below, in quarters of the distance to the neighbour above. -/
def below (x : Magnitude) : Nat :=
  if x.narrowBelow then 4 * x.mantissa - 1 else 4 * x.mantissa - 2

def lower (x : Magnitude) : ℚ := x.below * 2 ^ (x.exponent - 2)

/-- Halfway to the neighbour above. -/
def upper (x : Magnitude) : ℚ := (4 * x.mantissa + 2 : ℕ) * 2 ^ (x.exponent - 2)

/-- Rounding to nearest takes the number to `x`; a half goes to the even mantissa. -/
structure IsNearest (x : Magnitude) (v : ℚ) : Prop where
  lower : x.lower ≤ v
  upper : v ≤ x.upper
  ends : v = x.lower ∨ v = x.upper → x.mantissa % 2 = 0

theorem compareScaled_eq (a : Nat) (i : Int) (n : Nat) (j : Int) :
    compareScaled a i n j = compare (a * 10 ^ i : ℚ) (n * 2 ^ j : ℚ) := by
  -- Both sides are multiples of one positive number by the naturals that are compared.
  have hmono : StrictMono fun m : ℕ => (m : ℚ) / (10 ^ (-i).toNat * 2 ^ (-j).toNat) := by
    intro m m' h
    have hcast : (m : ℚ) < m' := by exact_mod_cast h
    have hpos : (0 : ℚ) < 10 ^ (-i).toNat * 2 ^ (-j).toNat := by positivity
    exact div_lt_div_of_pos_right hcast hpos
  have h := hmono.cmp_map_eq (a * Nat.pow 10 i.toNat * Nat.pow 2 (-j).toNat)
    (n * Nat.pow 2 j.toNat * Nat.pow 10 (-i).toNat)
  rw [cmp_eq_compare, cmp_eq_compare] at h
  rw [compareScaled, ← h, zpow_eq_div, zpow_eq_div]
  congr 1 <;> simp only [Nat.pow_eq] <;> push_cast <;> field_simp

theorem readsBack_iff (d : Decimal) : x.readsBack d = true ↔ x.IsNearest d.value := by
  have hends : x.readsBack d = true ↔
      (x.lower < d.value ∨ x.mantissa % 2 = 0 ∧ d.value = x.lower) ∧
        (d.value < x.upper ∨ x.mantissa % 2 = 0 ∧ d.value = x.upper) := by
    simp only [readsBack, compareScaled_eq, Bool.and_eq_true, Bool.or_eq_true, beq_iff_eq,
      compare_gt_iff_gt, compare_lt_iff_lt, compare_eq_iff_eq]
    rfl
  rw [hends]
  constructor
  · rintro ⟨hlo, hhi⟩
    refine ⟨?_, ?_, ?_⟩
    · exact hlo.elim le_of_lt fun h => h.2.ge
    · exact hhi.elim le_of_lt fun h => h.2.le
    · rintro (h | h)
      · exact (hlo.resolve_left (by rw [h]; exact lt_irrefl _)).1
      · exact (hhi.resolve_left (by rw [h]; exact lt_irrefl _)).1
  · intro h
    refine ⟨?_, ?_⟩
    · rcases h.lower.lt_or_eq with hlt | heq
      · exact .inl hlt
      · exact .inr ⟨h.ends (.inl heq.symm), heq.symm⟩
    · rcases h.upper.lt_or_eq with hlt | heq
      · exact .inl hlt
      · exact .inr ⟨h.ends (.inr heq), heq⟩

theorem below_lt (h : x.mantissa ≠ 0) : x.below < 4 * x.mantissa := by
  unfold below
  split <;> omega

theorem value_eq_quarters : x.value = (4 * x.mantissa : ℕ) * 2 ^ (x.exponent - 2) := by
  rw [value, zpow_sub₀ (by norm_num)]
  push_cast
  ring

theorem isNearest_value (h : x.mantissa ≠ 0) : x.IsNearest x.value := by
  have hscale : (0 : ℚ) < 2 ^ (x.exponent - 2) := by positivity
  have hlower : x.lower < x.value := by
    rw [value_eq_quarters, lower]
    exact mul_lt_mul_of_pos_right (by exact_mod_cast below_lt h) hscale
  have hupper : x.value < x.upper := by
    rw [value_eq_quarters, upper]
    exact mul_lt_mul_of_pos_right (by exact_mod_cast (by omega)) hscale
  refine ⟨hlower.le, hupper.le, ?_⟩
  rintro (heq | heq)
  · exact absurd heq hlower.ne'
  · exact absurd heq hupper.ne

theorem value_exact (x : Magnitude) : x.exact.value = x.value := by
  obtain ⟨m, e⟩ := x
  obtain ⟨n, rfl | rfl⟩ := e.eq_nat_or_neg
  · simp [exact, Decimal.value, value]
  · have hten : (10 : ℚ) ^ n = 2 ^ n * 5 ^ n := by rw [← mul_pow]; norm_num
    simp [exact, Decimal.value, value, hten]
    field_simp

theorem readsBack_of_onGrid? {tie : Tie} {grid : Int} {d : Decimal}
    (h : x.onGrid? tie grid = some d) : x.readsBack d = true := by
  unfold onGrid? at h
  simp only at h
  grind

/-- **The shortest decimal is nearest.** -/
theorem isNearest_shortest (tie : Tie) (h : x.mantissa ≠ 0) :
    x.IsNearest (x.shortest tie).value := by
  rw [shortest, if_neg h]
  simp only
  split
  · next d hd =>
    obtain ⟨n, -, hn⟩ := List.exists_of_findSome?_eq_some hd
    rw [Decimal.value_strip]
    exact (readsBack_iff d).mp (readsBack_of_onGrid? hn)
  · rw [value_exact]
    exact isNearest_value h

end Magnitude

/-! ## Neighbours -/

theorem magnitude_of_lt {rank : Nat} (h : rank < Nat.pow 2 52) : magnitude rank = ⟨rank, -1074⟩ :=
  if_pos h

theorem magnitude_of_le {rank : Nat} (h : Nat.pow 2 52 ≤ rank) : magnitude rank =
    ⟨Nat.pow 2 52 + rank % Nat.pow 2 52, (rank / Nat.pow 2 52 : Nat) - 1075⟩ :=
  if_neg (by omega)

theorem mantissa_magnitude_mod (rank : Nat) : (magnitude rank).mantissa % 2 = rank % 2 := by
  rcases Nat.lt_or_ge rank (Nat.pow 2 52) with h | h
  · rw [magnitude_of_lt h]
  · rw [magnitude_of_le h]
    simp only [Nat.pow_eq]
    omega

theorem mantissa_magnitude_ne_zero {rank : Nat} (h : rank ≠ 0) : (magnitude rank).mantissa ≠ 0 := by
  rcases Nat.lt_or_ge rank (Nat.pow 2 52) with hlt | hle
  · rwa [magnitude_of_lt hlt]
  · rw [magnitude_of_le hle]
    simp

/-- Neighbours with one exponent: the point halfway above the first is halfway below the second. -/
theorem Magnitude.lower_add_one {m : Nat} {e : Int} (h : m + 1 ≠ Nat.pow 2 52 ∨ e ≤ -1074) :
    lower ⟨m + 1, e⟩ = upper ⟨m, e⟩ := by
  have hnarrow : narrowBelow ⟨m + 1, e⟩ = false := by
    simp only [narrowBelow, Bool.and_eq_false_iff, beq_eq_false_iff_ne, decide_eq_false_iff_not]
    omega
  rw [lower, upper, below, hnarrow]
  congr 2

/-- Neighbours where the distance doubles. -/
theorem Magnitude.lower_two_pow {e : Int} (h : -1074 ≤ e) :
    lower ⟨Nat.pow 2 52, e + 1⟩ = upper ⟨2 * Nat.pow 2 52 - 1, e⟩ := by
  have hnarrow : narrowBelow ⟨Nat.pow 2 52, e + 1⟩ = true := by
    simp only [narrowBelow, Bool.and_eq_true, beq_self_eq_true, decide_eq_true_eq, true_and]
    omega
  have hexponent : e + 1 - 2 = e - 2 + 1 := by omega
  rw [lower, upper, below, hnarrow, hexponent, zpow_add_one₀ (by norm_num)]
  norm_num
  ring

/-- The point halfway to the neighbour above is the one halfway from it to the neighbour below. -/
theorem lower_magnitude_succ (rank : Nat) :
    (magnitude (rank + 1)).lower = (magnitude rank).upper := by
  have hpow : Nat.pow 2 52 = 4503599627370496 := by norm_num
  rcases Nat.lt_or_ge (rank + 1) (Nat.pow 2 52) with hlt | hle
  · rw [magnitude_of_lt hlt, magnitude_of_lt (by omega)]
    exact Magnitude.lower_add_one (.inr le_rfl)
  rw [magnitude_of_le hle]
  rcases Nat.lt_or_ge rank (Nat.pow 2 52) with hrank | hrank
  · have hfirst : rank + 1 = Nat.pow 2 52 := by omega
    rw [magnitude_of_lt hrank, hfirst, Nat.mod_self, Nat.div_self (by norm_num), Nat.add_zero,
      ← hfirst]
    exact Magnitude.lower_add_one (.inr le_rfl)
  rw [magnitude_of_le hrank]
  -- Only at a power of two the neighbour below is nearer than the one above.
  by_cases hstart : (rank + 1) % Nat.pow 2 52 = 0
  · have hmod : Nat.pow 2 52 + rank % Nat.pow 2 52 = 2 * Nat.pow 2 52 - 1 := by
      rw [hpow] at hstart ⊢
      omega
    have hdiv : ((rank + 1) / Nat.pow 2 52 : ℕ) - (1075 : ℤ) =
        (rank / Nat.pow 2 52 : ℕ) - 1075 + 1 := by
      rw [hpow] at hstart ⊢
      omega
    have hrun : 0 < rank / Nat.pow 2 52 := Nat.div_pos hrank (by norm_num)
    rw [hstart, hmod, hdiv]
    exact Magnitude.lower_two_pow (by omega)
  · have hmod : Nat.pow 2 52 + (rank + 1) % Nat.pow 2 52 =
        Nat.pow 2 52 + rank % Nat.pow 2 52 + 1 := by
      rw [hpow] at hstart ⊢
      omega
    have hdiv : (rank + 1) / Nat.pow 2 52 = rank / Nat.pow 2 52 := by
      rw [hpow] at hstart ⊢
      omega
    have hne : Nat.pow 2 52 + rank % Nat.pow 2 52 + 1 ≠ Nat.pow 2 52 := by omega
    rw [hmod, hdiv]
    exact Magnitude.lower_add_one (.inl hne)

theorem lower_lt_upper {rank : Nat} (h : rank ≠ 0) :
    (magnitude rank).lower < (magnitude rank).upper := by
  have hbelow := Magnitude.below_lt (mantissa_magnitude_ne_zero h)
  refine mul_lt_mul_of_pos_right ?_ (by positivity)
  exact_mod_cast (by omega)

theorem strictMono_upper : StrictMono fun rank => (magnitude rank).upper := by
  refine strictMono_nat_of_lt_succ fun rank => ?_
  rw [← lower_magnitude_succ]
  exact lower_lt_upper rank.succ_ne_zero

/-- A number that is nearest to two magnitudes would be an end of both, and only one of two
neighbours has an even mantissa. -/
theorem eq_of_isNearest {rank rank' : Nat} {v : ℚ} (h : (magnitude (rank + 1)).IsNearest v)
    (h' : (magnitude (rank' + 1)).IsNearest v) : rank = rank' := by
  wlog hle : rank ≤ rank' generalizing rank rank'
  · exact (this h' h (by omega)).symm
  by_contra hne
  have hup : (magnitude (rank + 1)).upper ≤ (magnitude rank').upper :=
    strictMono_upper.monotone (by omega)
  have hlow : (magnitude rank').upper ≤ v := lower_magnitude_succ rank' ▸ h'.lower
  have hup_eq : v = (magnitude (rank + 1)).upper := le_antisymm h.upper (hup.trans hlow)
  have hlow_eq : v = (magnitude rank').upper := le_antisymm (h.upper.trans hup) hlow
  have hnext : rank + 1 = rank' := strictMono_upper.injective (hup_eq.symm.trans hlow_eq)
  have heven := h.ends (.inr hup_eq)
  have heven' := h'.ends (.inl (hlow_eq.trans (lower_magnitude_succ rank').symm))
  rw [mantissa_magnitude_mod] at heven heven'
  omega

theorem value_shortest_pos (tie : Tie) (rank : Nat) :
    0 < ((magnitude (rank + 1)).shortest tie).value := by
  have h := Magnitude.isNearest_shortest tie (mantissa_magnitude_ne_zero rank.succ_ne_zero)
  refine lt_of_lt_of_le ?_ h.lower
  rw [lower_magnitude_succ]
  exact mul_pos (by positivity) (by positivity)

/-- **Different magnitudes are written with different values.** -/
theorem value_shortest_injective (tie : Tie) :
    Function.Injective fun rank => ((magnitude rank).shortest tie).value := by
  have hzero : ((magnitude 0).shortest tie).value = 0 := by
    rw [magnitude_of_lt (by decide)]
    simp [Magnitude.shortest, Decimal.value]
  intro rank rank' h
  match rank, rank' with
  | 0, 0 => rfl
  | 0, rank' + 1 => exact absurd (hzero.symm.trans h) (value_shortest_pos tie rank').ne
  | rank + 1, 0 => exact absurd (h.trans hzero) (value_shortest_pos tie rank).ne'
  | rank + 1, rank' + 1 =>
    have hn := Magnitude.isNearest_shortest tie (mantissa_magnitude_ne_zero rank.succ_ne_zero)
    have hn' := Magnitude.isNearest_shortest tie (mantissa_magnitude_ne_zero rank'.succ_ne_zero)
    have hsame : ((magnitude (rank + 1)).shortest tie).value =
        ((magnitude (rank' + 1)).shortest tie).value := h
    rw [eq_of_isNearest hn (hsame ▸ hn')]

end Binary64

end EventQuery
