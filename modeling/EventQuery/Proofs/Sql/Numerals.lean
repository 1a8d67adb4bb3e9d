import EventQuery.Proofs.Sql.Reading

/-! The texts of numbers are numerals: an integer is written as digits with a sign or none, a finite
binary number also with a fraction or an exponent, whatever the decisions of the layout are. -/

namespace EventQuery

open Sql.Reader

theorem isDigits_toDigits (n : Nat) : IsDigits (Nat.toDigits 10 n) :=
  ⟨Nat.toDigits_ne_nil, fun _ hc => Nat.isDigit_of_mem_toDigits (by decide) (by decide) hc⟩

theorem isDigits_append {ds es : List Char} (hd : IsDigits ds) (he : ∀ c ∈ es, c.isDigit = true) :
    IsDigits (ds ++ es) :=
  ⟨by simp [hd.1], List.forall_mem_append.mpr ⟨hd.2, he⟩⟩

theorem isDigit_of_mem_replicate {n : Nat} : ∀ c ∈ List.replicate n '0', c.isDigit = true := by
  intro c hc
  rw [List.eq_of_mem_replicate hc]
  rfl

theorem isDigits_toString {n : Int} (h : 0 ≤ n) : IsDigits (toString n).toList := by
  obtain ⟨m, rfl⟩ := Int.eq_ofNat_of_zero_le h
  show IsDigits m.repr.toList
  rw [Nat.toList_repr]
  exact isDigits_toDigits m

/-- An integer in digits, with a sign if it is negative. -/
theorem exists_toList_toString (n : Int) :
    ∃ s ds, IsSign s ∧ IsDigits ds ∧ (toString n).toList = s ++ ds := by
  cases n with
  | ofNat n => exact ⟨[], _, .inl rfl, isDigits_toString (Int.natCast_nonneg n), rfl⟩
  | negSucc n =>
    refine ⟨['-'], _, .inr (.inl rfl), isDigits_toDigits (n + 1), ?_⟩
    show ("-" ++ (n + 1).repr).toList = _
    rw [String.toList_append, Nat.toList_repr]
    rfl

theorem isNumeral_toString (n : Int) : IsNumeral (toString n).toList := by
  obtain ⟨s, ds, hs, hd, h⟩ := exists_toList_toString n
  rw [h]
  simpa using IsNumeral.mk hs hd (.inl rfl) (.inl rfl)

namespace NumberLayout

theorem isSign_sign (negative : Bool) : IsSign (sign negative) := by
  cases negative with
  | false => exact .inl rfl
  | true => exact .inr (.inl rfl)

/-- Digits with a point and a fraction, and no exponent. -/
theorem exists_layPositional (layout : NumberLayout) {digits : List Char} (h : IsDigits digits)
    (exponent : Int) : ∃ whole f, IsDigits whole ∧ IsFraction f ∧
      layout.layPositional digits exponent = whole ++ f := by
  unfold layPositional
  simp only
  split
  · refine ⟨_, _, isDigits_append h isDigit_of_mem_replicate, ?_, rfl⟩
    split
    · exact .inr ⟨['0'], ⟨by decide, List.forall_mem_singleton.mpr rfl⟩, rfl⟩
    · exact .inl rfl
  · next hexponent =>
    split
    · next hpoint =>
      refine ⟨digits.take _, _, ⟨?_, fun c hc => h.2 c (List.mem_of_mem_take hc)⟩,
        .inr ⟨digits.drop _, ⟨?_, fun c hc => h.2 c (List.mem_of_mem_drop hc)⟩, rfl⟩, rfl⟩
      · rw [ne_eq, List.take_eq_nil_iff, not_or]
        exact ⟨by omega, h.1⟩
      · rw [ne_eq, List.drop_eq_nil_iff]
        omega
    · refine ⟨['0'], _, ⟨by decide, List.forall_mem_singleton.mpr rfl⟩, .inr ⟨_, ?_, rfl⟩, rfl⟩
      refine ⟨by simp [h.1], List.forall_mem_append.mpr ⟨isDigit_of_mem_replicate, h.2⟩⟩

theorem isExponent_append (plus : Bool) (leading : Int) :
    IsExponent ('e' :: (if plus && 0 ≤ leading then ['+'] else [])
      ++ (toString leading).toList) := by
  split
  · next hplus =>
    simp only [Bool.and_eq_true, decide_eq_true_eq] at hplus
    exact .inr ⟨['+'], _, .inr (.inr rfl), isDigits_toString hplus.2, rfl⟩
  · obtain ⟨s, ds, hs, hds, he⟩ := exists_toList_toString leading
    rw [he]
    exact .inr ⟨s, ds, hs, hds, rfl⟩

/-- A digit, a fraction of the other digits if there are others, and an exponent. -/
theorem exists_layScientific (layout : NumberLayout) {digits : List Char} (h : IsDigits digits)
    (exponent : Int) : ∃ whole f e, IsDigits whole ∧ IsFraction f ∧ IsExponent e ∧
      layout.layScientific digits exponent = whole ++ f ++ e := by
  have hexponent := isExponent_append layout.plusExponent ((digits.length : Int) + exponent - 1)
  obtain ⟨hne, hd⟩ := h
  match digits with
  | [] => exact absurd rfl hne
  | [d] => exact ⟨[d], [], _, ⟨hne, hd⟩, .inl rfl, hexponent, List.append_assoc _ _ _⟩
  | d :: e :: rest =>
    obtain ⟨hd, hrest⟩ := List.forall_mem_cons.mp hd
    exact ⟨[d], '.' :: e :: rest, _, ⟨List.cons_ne_nil _ _, List.forall_mem_singleton.mpr hd⟩,
      .inr ⟨_, ⟨List.cons_ne_nil _ _, hrest⟩, rfl⟩, hexponent, List.append_assoc _ _ _⟩

theorem isNumeral_write (layout : NumberLayout) {x : Binary64} (h : x.isFinite = true) :
    IsNumeral (layout.write x).toList := by
  cases x with
  | nan => cases h
  | infinite negative => cases h
  | finite negative rank =>
    rw [write, String.toList_ofList]
    have hdigits := isDigits_toDigits ((Binary64.magnitude rank).shortest layout.tie).digits
    have hsign := isSign_sign negative
    unfold layDecimal
    simp only
    split
    · obtain ⟨whole, f, hw, hf, he⟩ := layout.exists_layPositional hdigits
        ((Binary64.magnitude rank).shortest layout.tie).exponent
      rw [he]
      simpa using IsNumeral.mk hsign hw hf (.inl rfl)
    · obtain ⟨whole, f, e, hw, hf, hexponent, he⟩ := layout.exists_layScientific hdigits
        ((Binary64.magnitude rank).shortest layout.tie).exponent
      rw [he]
      simpa using IsNumeral.mk hsign hw hf hexponent

end NumberLayout

end EventQuery
