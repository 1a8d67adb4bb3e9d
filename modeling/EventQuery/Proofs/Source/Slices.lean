import EventQuery.Proofs.Source.Boundaries

/-! Slices of a text by ranges of byte offsets. A slice is only there when its range starts and ends
between characters of the text (`slice?_eq_some_iff`), so a program that slices has to know that its
offsets do. -/

namespace EventQuery.Source

open Text

/-! ## Splits of a text -/

/-- The text in front of an offset and the text from there on; none if the offset lies inside a
character or past the end. -/
def splitAt? : Nat → List Char → Option (List Char × List Char)
  | 0, cs => some ([], cs)
  | _ + 1, [] => none
  | o + 1, c :: cs =>
    if c.utf8Size ≤ o + 1 then
      (splitAt? (o + 1 - c.utf8Size) cs).map fun (front, rest) => (c :: front, rest)
    else none

theorem splitAt?_append (front rest : List Char) :
    splitAt? (byteSize front) (front ++ rest) = some (front, rest) := by
  induction front with
  | nil => rw [byteSize, splitAt?, List.nil_append]
  | cons c front ih =>
    obtain ⟨n, hn⟩ := Nat.exists_eq_add_one_of_ne_zero (Nat.ne_of_gt c.utf8Size_pos)
    have hsize : byteSize (c :: front) = n + byteSize front + 1 := by
      rw [byteSize, hn]
      omega
    have hrest : n + byteSize front + 1 - c.utf8Size = byteSize front := by omega
    rw [hsize, List.cons_append, splitAt?, if_pos (by omega), hrest, ih, Option.map_some]

/-- A text is split at an offset where the bytes in front of it are whole characters. -/
theorem splitAt?_eq_some_iff {o : Nat} {text front rest : List Char} :
    splitAt? o text = some (front, rest) ↔ text = front ++ rest ∧ byteSize front = o := by
  constructor
  · intro h
    fun_induction splitAt? o text generalizing front with
    | case1 cs =>
      cases h
      exact ⟨rfl, rfl⟩
    | case2 => cases h
    | case3 o c cs hc ih =>
      obtain ⟨⟨front, rest⟩, hsplit, heq⟩ := Option.map_eq_some_iff.mp h
      cases heq
      obtain ⟨rfl, hsize⟩ := ih hsplit
      exact ⟨rfl, by rw [byteSize, hsize]; omega⟩
    | case4 => cases h
  · rintro ⟨rfl, rfl⟩
    exact splitAt?_append front rest

/-- Boundaries are the offsets where a text can be split. -/
theorem isBoundary_iff {text : List Char} {o : Nat} :
    IsBoundary text o ↔ (splitAt? o text).isSome = true := by
  simp only [IsBoundary, Option.isSome_iff_exists, Prod.exists, splitAt?_eq_some_iff]

instance (text : List Char) (o : Nat) : Decidable (IsBoundary text o) :=
  decidable_of_iff _ isBoundary_iff.symm

/-- Of two splits of a text, the one at the smaller offset leaves a part between them. -/
theorem exists_between {a b c d : List Char} (h : a ++ b = c ++ d)
    (hle : byteSize a ≤ byteSize c) : ∃ between, c = a ++ between ∧ b = between ++ d := by
  rcases List.append_eq_append_iff.mp h with ⟨between, rfl, rfl⟩ | ⟨between, rfl, rfl⟩
  · exact ⟨between, rfl, rfl⟩
  · cases between with
    | nil => exact ⟨[], by simp, rfl⟩
    | cons x between =>
      have hpos := x.utf8Size_pos
      rw [byteSize_append, byteSize] at hle
      omega

/-! ## Slices -/

/-- The characters of a range. -/
def slice? (text : List Char) (r : ByteRange) : Option (List Char) :=
  if r.start ≤ r.stop then do
    let (_, rest) ← splitAt? r.start text
    let (run, _) ← splitAt? (r.stop - r.start) rest
    return run
  else none

theorem slice?_eq_some_iff {text run : List Char} {r : ByteRange} :
    slice? text r = some run ↔ ∃ before after, text = before ++ run ++ after ∧
      byteSize before = r.start ∧ byteSize (before ++ run) = r.stop := by
  unfold slice?
  constructor
  · intro h
    split at h
    · next hle =>
      obtain ⟨⟨before, rest⟩, hbefore, h⟩ := Option.bind_eq_some_iff.mp h
      obtain ⟨⟨run, after⟩, hrun, h⟩ := Option.bind_eq_some_iff.mp h
      cases h
      obtain ⟨rfl, hstart⟩ := splitAt?_eq_some_iff.mp hbefore
      obtain ⟨rfl, hsize⟩ := splitAt?_eq_some_iff.mp hrun
      refine ⟨before, after, (List.append_assoc ..).symm, hstart, ?_⟩
      rw [byteSize_append]
      omega
    · cases h
  · rintro ⟨before, after, rfl, hstart, hstop⟩
    rw [byteSize_append] at hstop
    have hsize : r.stop - r.start = byteSize run := by omega
    rw [if_pos (by omega), hsize, ← hstart, List.append_assoc, splitAt?_append]
    change (splitAt? (byteSize run) (run ++ after)).bind _ = _
    rw [splitAt?_append]
    rfl

example : slice? ['é', 'a'] ⟨2, 3⟩ = some ['a'] ∧ slice? ['é', 'a'] ⟨1, 3⟩ = none ∧
    slice? ['é', 'a'] ⟨2, 4⟩ = none ∧ slice? ['é', 'a'] ⟨3, 2⟩ = none := by
  decide

/-- The middle of a text is the slice from its first to its last byte. -/
theorem slice?_append (before run after : List Char) :
    slice? (before ++ run ++ after) ⟨byteSize before, byteSize (before ++ run)⟩ = some run :=
  slice?_eq_some_iff.mpr ⟨before, after, rfl, rfl, rfl⟩

theorem slice?_front (before after : List Char) :
    slice? (before ++ after) ⟨0, byteSize before⟩ = some before :=
  slice?_append [] before after

theorem slice?_back (before after : List Char) :
    slice? (before ++ after) ⟨byteSize before, byteSize (before ++ after)⟩ = some after :=
  slice?_eq_some_iff.mpr ⟨before, [], (List.append_nil _).symm, rfl, rfl⟩

/-- What can be sliced starts and ends between characters. -/
theorem isBoundary_of_slice? {text run : List Char} {r : ByteRange} (h : slice? text r = some run) :
    IsBoundary text r.start ∧ IsBoundary text r.stop := by
  obtain ⟨before, after, rfl, hstart, hstop⟩ := slice?_eq_some_iff.mp h
  exact ⟨⟨before, run ++ after, List.append_assoc .., hstart⟩, ⟨before ++ run, after, rfl, hstop⟩⟩

/-! ## The boundary below an offset, counted down to -/

/-- The last offset between characters up to the given one. -/
def boundaryBelow (text : List Char) : Nat → Nat
  | 0 => 0
  | o + 1 => if IsBoundary text (o + 1) then o + 1 else boundaryBelow text o

/-- Counting down stops at the greatest boundary, for the start of the text is one. -/
theorem isGreatest_boundaryBelow (text : List Char) (o : Nat) :
    IsGreatest {b | IsBoundary text b ∧ b ≤ o} (boundaryBelow text o) := by
  induction o with
  | zero => exact ⟨⟨.zero text, Nat.le_refl 0⟩, fun b hb => hb.2⟩
  | succ o ih =>
    rw [boundaryBelow]
    split
    · next hnext => exact ⟨⟨hnext, Nat.le_refl _⟩, fun b hb => hb.2⟩
    · next hnext =>
      refine ⟨⟨ih.1.1, Nat.le_succ_of_le ih.1.2⟩, fun b hb => ih.2 ⟨hb.1, ?_⟩⟩
      have hne : b ≠ o + 1 := fun heq => hnext (heq ▸ hb.1)
      have hle : b ≤ o + 1 := hb.2
      omega

theorem boundaryBelow_eq_floor (text : List Char) (o : Nat) :
    boundaryBelow text o = floor text o :=
  (isGreatest_boundaryBelow text o).unique (isGreatest_floor text o)

/-- An offset past the end stands for the end. -/
theorem floor_min (text : List Char) (o : Nat) :
    floor text (min o (byteSize text)) = floor text o := by
  rcases Nat.le_total o (byteSize text) with h | h
  · rw [Nat.min_eq_left h]
  · rw [Nat.min_eq_right h, floor_of_byteSize_le h, floor_of_byteSize_le (Nat.le_refl _)]

end EventQuery.Source
