import EventQuery.Number.Reading
import EventQuery.Proofs.Number.Nearest
import EventQuery.Proofs.Sql.Numerals

/-! The text of a number determines it. However the digits of a decimal are laid out, what is read
from them has its value, so two finite numbers with one text are the same; and where whole numbers
end in `.0`, no text of a number is that of an integer. -/

namespace EventQuery

open Sql.Reader

theorem Decimal.value_shift (n k : Nat) (e : Int) :
    value ⟨n * 10 ^ k, e⟩ = value ⟨n, e + k⟩ := by
  rw [value, value, zpow_add₀ (by norm_num), zpow_natCast]
  push_cast
  ring

namespace Numeral

/-! ## Reading the parts of a numeral -/

theorem digitsValue_eq (n : Nat) (cs : List Char) :
    digitsValue n cs = Nat.ofDigitChars 10 cs n := by
  induction cs generalizing n with
  | nil => exact Nat.ofDigitChars_nil.symm
  | cons c cs ih =>
    rw [Nat.ofDigitChars_cons]
    exact ih _

theorem digitsValue_toDigits (n : Nat) : digitsValue 0 (Nat.toDigits 10 n) = n := by
  rw [digitsValue_eq, Nat.ofDigitChars_toDigits (by decide) (by decide)]

theorem digitsValue_append_zeros (cs : List Char) (n : Nat) :
    digitsValue 0 (cs ++ List.replicate n '0') = digitsValue 0 cs * 10 ^ n := by
  rw [digitsValue_eq, digitsValue_eq, Nat.ofDigitChars_append, Nat.ofDigitChars_replicate_zero,
    Nat.mul_comm]

theorem digitsValue_zeros_append (n : Nat) (cs : List Char) :
    digitsValue 0 (List.replicate n '0' ++ cs) = digitsValue 0 cs := by
  rw [digitsValue_eq, digitsValue_eq, Nat.ofDigitChars_append, Nat.ofDigitChars_replicate_zero,
    Nat.mul_zero]

theorem natural?_of_isDigits {ds : List Char} (h : IsDigits ds) :
    natural? ds = some (digitsValue 0 ds) := by
  rw [natural?, if_neg]
  simpa [h.1] using h.2

theorem splitSign_of_isDigits {ds : List Char} (h : IsDigits ds) (rest : List Char) :
    splitSign (ds ++ rest) = (false, ds ++ rest) := by
  obtain ⟨hne, hdigits⟩ := h
  cases ds with
  | nil => exact absurd rfl hne
  | cons d ds =>
    have hd := hdigits d List.mem_cons_self
    rw [splitSign.eq_def]
    split
    · next heq => cases heq; exact absurd hd (by decide)
    · next heq => cases heq; exact absurd hd (by decide)
    · rfl

theorem exponent?_of_isDigits {ds : List Char} (h : IsDigits ds) (negative : Bool)
    {sign : List Char} (hs : splitSign (sign ++ ds) = (negative, ds)) :
    exponent? ('e' :: (sign ++ ds)) =
      some (if negative then -(digitsValue 0 ds : Int) else digitsValue 0 ds) := by
  simp only [exponent?, if_pos (show ('e'.toLower == 'e') = true by decide), hs,
    natural?_of_isDigits h]
  rfl

/-- An integer, with a plus or without, is read back from an exponent. -/
theorem exponent?_toString (i : Int) (plus : Bool) :
    exponent? ('e' :: ((if plus && 0 ≤ i then ['+'] else []) ++ (toString i).toList)) = some i := by
  cases i with
  | ofNat n =>
    have htext : (toString (Int.ofNat n)).toList = Nat.toDigits 10 n := Nat.toList_repr
    have hdigits := isDigits_toDigits n
    rw [htext, exponent?_of_isDigits hdigits false, digitsValue_toDigits]
    · rfl
    · cases plus with
      | true => rfl
      | false => simpa using splitSign_of_isDigits hdigits []
  | negSucc n =>
    have htext : (toString (Int.negSucc n)).toList = ['-'] ++ Nat.toDigits 10 (n + 1) := by
      show ("-" ++ (n + 1).repr).toList = _
      rw [String.toList_append, Nat.toList_repr]
      rfl
    rw [htext, if_neg (by simp), List.nil_append,
      exponent?_of_isDigits (isDigits_toDigits (n + 1)) true rfl, digitsValue_toDigits]
    rfl

theorem eq_of_toString_eq {i j : Int} (h : toString i = toString j) : i = j := by
  have hi := exponent?_toString i false
  have hj := exponent?_toString j false
  simp only [Bool.false_and, h] at hi hj
  exact Option.some.inj (hi.symm.trans hj)

/-- An exponent ends the digits in front of it. -/
theorem head?_of_exponent? {rest : List Char} {i : Int} (h : exponent? rest = some i) :
    ∀ c ∈ rest.head?, c.isDigit = false ∧ c ≠ '.' := by
  intro c hc
  obtain ⟨tail, rfl⟩ := List.head?_eq_some_iff.mp hc
  rw [exponent?] at h
  split at h
  · next he =>
    rw [beq_iff_eq] at he
    refine ⟨Bool.eq_false_iff.mpr fun hdigit => ?_, fun hpoint => ?_⟩
    · have hlower : ∀ n < 128, (Char.ofNat n).isDigit = true → (Char.ofNat n).toLower ≠ 'e' := by
        decide
      exact Text.forall_ascii (p := fun c => c.isDigit = true → c.toLower ≠ 'e') hlower
        (Text.toNat_lt_of_isDigit hdigit) hdigit he
    · rw [hpoint] at he
      exact absurd he (by decide)
  · cases h

section
variable {whole places rest : List Char} {i : Int} (hw : IsDigits whole)
  (he : exponent? rest = some i)
include hw he

theorem decimal?_of_places (hp : ∀ c ∈ places, c.isDigit = true) :
    decimal? (whole ++ '.' :: (places ++ rest)) =
      some ⟨digitsValue 0 (whole ++ places), i - (places.length : Int)⟩ := by
  have hpoint : ∀ c ∈ ('.' :: (places ++ rest)).head?, c.isDigit = false := by
    rintro c ⟨rfl⟩
    rfl
  have hrest : ∀ c ∈ rest.head?, c.isDigit = false := fun c hc => (head?_of_exponent? he c hc).1
  simp [decimal?, Text.takeWhile_append_of_head? hw.2 hpoint,
    Text.dropWhile_append_of_head? hw.2 hpoint, Text.takeWhile_append_of_head? hp hrest,
    Text.dropWhile_append_of_head? hp hrest, hw.1, he]

theorem decimal?_of_whole : decimal? (whole ++ rest) = some ⟨digitsValue 0 whole, i⟩ := by
  have hrest : ∀ c ∈ rest.head?, c.isDigit = false := fun c hc => (head?_of_exponent? he c hc).1
  rw [decimal?, Text.takeWhile_append_of_head? hw.2 hrest,
    Text.dropWhile_append_of_head? hw.2 hrest]
  split
  next heq =>
  split at heq
  · exact absurd rfl (head?_of_exponent? he '.' rfl).2
  · cases heq
    simp [hw.1, he]

end

end Numeral

namespace NumberLayout

variable {layout : NumberLayout}

open Numeral

section
variable {digits : List Char} (h : IsDigits digits) (exponent : Int)
include h

theorem exists_decimal?_layPositional : ∃ d,
    decimal? (layout.layPositional digits exponent) = some d ∧
      d.value = Decimal.value ⟨digitsValue 0 digits, exponent⟩ := by
  have hnone : exponent? [] = some 0 := rfl
  unfold layPositional zeros
  simp only
  split
  · next hexponent =>
    have hwhole := isDigits_append h (isDigit_of_mem_replicate (n := exponent.toNat))
    split
    · have hzero : ∀ c ∈ ['0'], c.isDigit = true := List.forall_mem_singleton.mpr rfl
      refine ⟨_, decimal?_of_places hwhole hnone hzero, ?_⟩
      rw [List.append_assoc, ← List.replicate_succ', digitsValue_append_zeros, Decimal.value_shift]
      congr 2
      simp only [List.length_singleton]
      omega
    · refine ⟨_, decimal?_of_whole hwhole hnone, ?_⟩
      rw [digitsValue_append_zeros, Decimal.value_shift]
      congr 2
      omega
  · next hexponent =>
    split
    · next hpoint =>
      have hwhole : IsDigits (digits.take (digits.length + exponent).toNat) := by
        refine ⟨?_, fun c hc => h.2 c (List.mem_of_mem_take hc)⟩
        rw [ne_eq, List.take_eq_nil_iff, not_or]
        exact ⟨by omega, h.1⟩
      have hplaces : ∀ c ∈ digits.drop (digits.length + exponent).toNat, c.isDigit = true :=
        fun c hc => h.2 c (List.mem_of_mem_drop hc)
      have hread := decimal?_of_places hwhole hnone hplaces
      rw [List.append_nil, List.take_append_drop] at hread
      refine ⟨_, hread, ?_⟩
      congr 2
      rw [List.length_drop]
      omega
    · next hpoint =>
      have hzero : IsDigits ['0'] := ⟨by decide, List.forall_mem_singleton.mpr rfl⟩
      have hplaces := List.forall_mem_append.mpr
        ⟨isDigit_of_mem_replicate (n := (-(digits.length + exponent : Int)).toNat), h.2⟩
      have hread := decimal?_of_places hzero hnone hplaces
      have hvalue (n : Nat) : digitsValue 0 (['0'] ++ (List.replicate n '0' ++ digits)) =
          digitsValue 0 digits := digitsValue_zeros_append (n + 1) digits
      rw [List.append_nil, hvalue] at hread
      refine ⟨_, hread, ?_⟩
      congr 2
      rw [List.length_append, List.length_replicate]
      omega

theorem exists_decimal?_layScientific : ∃ d,
    decimal? (layout.layScientific digits exponent) = some d ∧
      d.value = Decimal.value ⟨digitsValue 0 digits, exponent⟩ := by
  have hexponent := exponent?_toString ((digits.length : Int) + exponent - 1) layout.plusExponent
  obtain ⟨hne, hdigits⟩ := h
  match digits with
  | [] => exact absurd rfl hne
  | [d] =>
    have hread := decimal?_of_whole ⟨hne, hdigits⟩ hexponent
    refine ⟨_, (congrArg decimal? (List.append_assoc _ _ _)).trans hread, ?_⟩
    congr 2
    simp
  | d :: e :: rest =>
    obtain ⟨hd, hrest⟩ := List.forall_mem_cons.mp hdigits
    have hwhole : IsDigits [d] := ⟨List.cons_ne_nil _ _, List.forall_mem_singleton.mpr hd⟩
    have hread := decimal?_of_places hwhole hexponent hrest
    refine ⟨_, (congrArg decimal? (List.append_assoc _ _ _)).trans hread, ?_⟩
    congr 2
    simp only [List.length_cons]
    omega

end

/-- **A decimal is read back with its value**, however it is laid out. -/
theorem exists_decimal?_layDecimal (layout : NumberLayout) (d : Decimal) :
    ∃ d', decimal? (layout.layDecimal d) = some d' ∧ d'.value = d.value := by
  have hdigits := isDigits_toDigits d.digits
  have hvalue : d = ⟨digitsValue 0 (Nat.toDigits 10 d.digits), d.exponent⟩ := by
    rw [digitsValue_toDigits]
  rw [layDecimal]
  split
  · rw [congrArg Decimal.value hvalue]
    exact exists_decimal?_layPositional hdigits d.exponent
  · rw [congrArg Decimal.value hvalue]
    exact exists_decimal?_layScientific hdigits d.exponent

theorem exists_layDecimal (layout : NumberLayout) (d : Decimal) :
    ∃ whole rest, IsDigits whole ∧ layout.layDecimal d = whole ++ rest := by
  have hdigits := isDigits_toDigits d.digits
  rw [layDecimal]
  split
  · obtain ⟨whole, f, hw, -, he⟩ := layout.exists_layPositional hdigits d.exponent
    exact ⟨whole, f, hw, he⟩
  · obtain ⟨whole, f, e, hw, -, -, he⟩ := layout.exists_layScientific hdigits d.exponent
    exact ⟨whole, f ++ e, hw, he.trans (List.append_assoc _ _ _)⟩

theorem splitSign_write (layout : NumberLayout) (negative : Bool) (d : Decimal) :
    splitSign (sign negative ++ layout.layDecimal d) = (negative, layout.layDecimal d) := by
  cases negative with
  | true => rfl
  | false =>
    obtain ⟨whole, rest, hw, he⟩ := layout.exists_layDecimal d
    rw [he]
    exact splitSign_of_isDigits hw rest

/-- **Different finite numbers have different texts.** -/
theorem eq_of_write_eq {x y : Binary64} (hx : x.isFinite = true) (hy : y.isFinite = true)
    (h : layout.write x = layout.write y) : x = y := by
  match x, y, hx, hy with
  | .finite negative rank, .finite negative' rank', _, _ =>
    have hchars := congrArg splitSign (String.ofList_injective h)
    rw [splitSign_write, splitSign_write] at hchars
    obtain ⟨rfl, hdecimal⟩ := Prod.mk.inj hchars
    obtain ⟨d, hd, hvalue⟩ := layout.exists_decimal?_layDecimal
      ((Binary64.magnitude rank).shortest layout.tie)
    obtain ⟨d', hd', hvalue'⟩ := layout.exists_decimal?_layDecimal
      ((Binary64.magnitude rank').shortest layout.tie)
    rw [hdecimal, hd'] at hd
    cases hd
    have hrank := Binary64.value_shortest_injective layout.tie (hvalue.symm.trans hvalue')
    rw [Fin.ext hrank]

/-- A point or an exponent is in the text. -/
theorem mem_layDecimal (hp : layout.pointZero = true) (d : Decimal) :
    '.' ∈ layout.layDecimal d ∨ 'e' ∈ layout.layDecimal d := by
  rw [layDecimal]
  split
  · left
    unfold layPositional
    simp only [hp, if_true]
    split
    · simp
    · split <;> simp
  · right
    simp [layScientific]

/-- **No number is written as an integer** where whole numbers end in `.0`. -/
theorem write_ne_toString (hp : layout.pointZero = true) {x : Binary64} (hx : x.isFinite = true)
    (n : Int) : layout.write x ≠ toString n := by
  match x, hx with
  | .finite negative rank, _ =>
    intro h
    obtain ⟨s, ds, hs, hds, hn⟩ := exists_toList_toString n
    rw [← h, write, String.toList_ofList] at hn
    have hmem : ∀ c ∈ s ++ ds, c = '-' ∨ c = '+' ∨ c.isDigit = true := by
      rw [List.forall_mem_append]
      refine ⟨?_, fun c hc => .inr (.inr (hds.2 c hc))⟩
      obtain rfl | rfl | rfl := hs <;> simp
    rw [← hn] at hmem
    rcases mem_layDecimal hp ((Binary64.magnitude rank).shortest layout.tie) with hc | hc
    · exact absurd (hmem _ (List.mem_append_right _ hc)) (by decide)
    · exact absurd (hmem _ (List.mem_append_right _ hc)) (by decide)

end NumberLayout

end EventQuery
