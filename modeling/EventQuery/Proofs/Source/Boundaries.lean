import EventQuery.Proofs.Source.Offsets
import Mathlib.Order.Bounds.Basic

/-! Offsets between characters. Positions tell these offsets apart, in their order, and any other
offset has the position of the one below it. Back from positions, each leads to an offset between
characters, a later position never to an earlier offset. -/

namespace EventQuery.Source

open Text

/-- The offset of a place between two characters, or of an end of the text. -/
def IsBoundary (text : List Char) (o : Nat) : Prop :=
  ∃ before after, text = before ++ after ∧ byteSize before = o

namespace IsBoundary

variable {text : List Char} {o : Nat}

theorem zero (text : List Char) : IsBoundary text 0 := ⟨[], text, rfl, rfl⟩

theorem byteSize (text : List Char) : IsBoundary text (byteSize text) :=
  ⟨text, [], (List.append_nil text).symm, rfl⟩

theorem le (h : IsBoundary text o) : o ≤ Text.byteSize text := by
  obtain ⟨before, after, rfl, rfl⟩ := h
  rw [byteSize_append]
  exact Nat.le_add_right _ _

theorem append_left (h : IsBoundary text o) (front : List Char) :
    IsBoundary (front ++ text) (Text.byteSize front + o) := by
  obtain ⟨before, after, rfl, rfl⟩ := h
  exact ⟨front ++ before, after, (List.append_assoc ..).symm, byteSize_append ..⟩

theorem append_right (h : IsBoundary text o) (rest : List Char) : IsBoundary (text ++ rest) o := by
  obtain ⟨before, after, rfl, rfl⟩ := h
  exact ⟨before, after ++ rest, List.append_assoc .., rfl⟩

/-- An offset behind the first character is counted from there. -/
theorem cons_cases {c : Char} (h : IsBoundary (c :: text) o) :
    o = 0 ∨ ∃ o', o = c.utf8Size + o' ∧ IsBoundary text o' := by
  obtain ⟨before, after, htext, rfl⟩ := h
  cases before with
  | nil => exact .inl rfl
  | cons d before =>
    obtain ⟨rfl, rfl⟩ := List.cons.inj htext
    exact .inr ⟨_, rfl, before, after, rfl, rfl⟩

/-- Between two offsets there is at least a character. -/
theorem position_lt {o' : Nat} (h : IsBoundary text o) (h' : IsBoundary text o') (hlt : o < o') :
    position text o < position text o' := by
  obtain ⟨before, after, rfl, rfl⟩ := h
  obtain ⟨before', after', htext, rfl⟩ := h'
  rcases List.append_eq_append_iff.mp htext with ⟨between, rfl, rfl⟩ | ⟨between, rfl, -⟩
  · cases between with
    | nil =>
      rw [List.append_nil] at hlt
      exact absurd hlt (Nat.lt_irrefl _)
    | cons c between =>
      apply Source.position_lt
      rw [byteSize_append, Text.byteSize]
      omega
  · rw [byteSize_append] at hlt
    omega

end IsBoundary

/-! ## The offset below -/

/-- The start of the character that an offset lies in; the end for an offset past the end. -/
def floor : List Char → Nat → Nat
  | [], _ => 0
  | c :: cs, o => if o < c.utf8Size then 0 else c.utf8Size + floor cs (o - c.utf8Size)

theorem isBoundary_floor (text : List Char) (o : Nat) : IsBoundary text (floor text o) := by
  induction text generalizing o with
  | nil => exact .zero []
  | cons c cs ih =>
    rw [floor]
    split
    · exact .zero (c :: cs)
    · exact (ih _).append_left [c]

theorem floor_le (text : List Char) (o : Nat) : floor text o ≤ o := by
  induction text generalizing o with
  | nil => exact Nat.zero_le o
  | cons c cs ih =>
    rw [floor]
    split
    · exact Nat.zero_le o
    · have hrest := ih (o - c.utf8Size)
      omega

theorem le_floor {text : List Char} {b o : Nat} (hb : IsBoundary text b) (h : b ≤ o) :
    b ≤ floor text o := by
  induction text generalizing b o with
  | nil => exact hb.le
  | cons c cs ih =>
    rcases hb.cons_cases with rfl | ⟨b, rfl, hrest⟩
    · exact Nat.zero_le _
    · have hle : b ≤ floor cs (o - c.utf8Size) := ih hrest (by omega)
      rw [floor, if_neg (by omega)]
      omega

theorem isGreatest_floor (text : List Char) (o : Nat) :
    IsGreatest {b | IsBoundary text b ∧ b ≤ o} (floor text o) :=
  ⟨⟨isBoundary_floor text o, floor_le text o⟩, fun _ hb => le_floor hb.1 hb.2⟩

theorem floor_of_byteSize_le {text : List Char} {o : Nat} (h : byteSize text ≤ o) :
    floor text o = byteSize text :=
  Nat.le_antisymm (isBoundary_floor text o).le (le_floor (.byteSize text) h)

theorem positionFrom_floor (line character : Nat) (cs : List Char) (o : Nat) :
    positionFrom line character cs (floor cs o) = positionFrom line character cs o := by
  induction cs generalizing line character o with
  | nil => rfl
  | cons c cs ih =>
    rw [floor]
    by_cases ho : o < c.utf8Size
    · rw [if_pos ho, positionFrom_zero, positionFrom, if_pos ho]
    · have hpast : ¬c.utf8Size + floor cs (o - c.utf8Size) < c.utf8Size := by omega
      simp only [if_neg ho, positionFrom, if_neg hpast, Nat.add_sub_cancel_left, ih]

/-! ## The offset of a position -/

theorem isBoundary_columnOffset (cs : List Char) (character : Nat) :
    IsBoundary cs (columnOffset cs character) := by
  induction cs generalizing character with
  | nil => exact .zero []
  | cons c cs ih =>
    rw [columnOffset]
    split
    · exact .zero (c :: cs)
    · exact (ih _).append_left [c]

theorem columnOffset_mono (cs : List Char) {a b : Nat} (h : a ≤ b) :
    columnOffset cs a ≤ columnOffset cs b := by
  induction cs generalizing a b with
  | nil => exact Nat.le_refl _
  | cons c cs ih =>
    by_cases ha : a = 0
    · rw [columnOffset, if_pos ha]
      exact Nat.zero_le _
    · rw [columnOffset, if_neg ha, columnOffset, if_neg (by omega)]
      exact Nat.add_le_add_left (ih (Nat.sub_le_sub_right h _)) _

/-- Columns past the end of a line stand for its end. -/
theorem columnOffset_of_le {cs : List Char} {character : Nat} (h : unitSize cs ≤ character) :
    columnOffset cs character = byteSize cs := by
  induction cs generalizing character with
  | nil => rfl
  | cons c cs ih =>
    have hpos := unitsOf_pos c
    rw [unitSize] at h
    rw [columnOffset, if_neg (by omega), ih (by omega), byteSize]

/-- At most a carriage return stands between the end of a line and its line feed. -/
theorem exists_line_tail (cs : List Char) :
    ∃ tail, cs.takeWhile (· ≠ '\n') = firstLine cs ++ tail := by
  unfold firstLine
  dsimp only
  split
  · next hlast =>
    obtain ⟨init, hinit⟩ := List.getLast?_eq_some_iff.mp hlast
    exact ⟨['\r'], by rw [hinit, List.dropLast_concat]⟩
  · exact ⟨[], (List.append_nil _).symm⟩

theorem exists_before_of_skipLines {start n s : Nat} {cs rest : List Char}
    (h : skipLines start n cs = some (s, rest)) :
    ∃ before, cs = before ++ rest ∧ s = start + byteSize before := by
  fun_induction skipLines start n cs with
  | case1 start cs =>
    cases h
    exact ⟨[], rfl, rfl⟩
  | case2 => cases h
  | case3 start n cs ih =>
    obtain ⟨before, rfl, rfl⟩ := ih h
    exact ⟨'\n' :: before, rfl, by rw [byteSize, Nat.add_assoc]⟩
  | case4 start n c cs hc ih =>
    obtain ⟨before, rfl, rfl⟩ := ih h
    exact ⟨c :: before, rfl, by rw [byteSize, Nat.add_assoc]⟩

theorem isBoundary_offset (text : List Char) (p : Position) :
    IsBoundary text (offset text p) := by
  unfold offset
  split
  · exact .byteSize text
  · next start rest hskip =>
    obtain ⟨before, rfl, rfl⟩ := exists_before_of_skipLines hskip
    obtain ⟨tail, htail⟩ := exists_line_tail rest
    have hrest : firstLine rest ++ (tail ++ rest.dropWhile (· ≠ '\n')) = rest := by
      rw [← List.append_assoc, ← htail, List.takeWhile_append_dropWhile]
    have hcolumn := (isBoundary_columnOffset (firstLine rest) p.character).append_right
      (tail ++ rest.dropWhile (· ≠ '\n'))
    rw [hrest] at hcolumn
    rw [Nat.zero_add]
    exact hcolumn.append_left before

theorem skipLines_add (start m n : Nat) (cs : List Char) :
    skipLines start (m + n) cs = (skipLines start m cs).bind fun x => skipLines x.1 n x.2 := by
  fun_induction skipLines start m cs with
  | case1 start cs => rw [Nat.zero_add, Option.bind_some]
  | case2 start m => rw [Nat.succ_add, skipLines, Option.bind_none]
  | case3 start m cs ih => rw [Nat.succ_add, skipLines, if_pos rfl, ih]
  | case4 start m c cs hc ih =>
    rw [Nat.succ_add] at ih ⊢
    rw [skipLines, if_neg hc, ih]

theorem byteSize_firstLine_le (cs : List Char) :
    byteSize (firstLine cs) ≤ byteSize (cs.takeWhile (· ≠ '\n')) := by
  obtain ⟨tail, htail⟩ := exists_line_tail cs
  rw [htail, byteSize_append]
  exact Nat.le_add_right _ _

/-- The next line starts behind the line feed of the first. -/
theorem feed_le_of_skipLines {start n s : Nat} {cs rest : List Char}
    (h : skipLines start (n + 1) cs = some (s, rest)) :
    start + byteSize (cs.takeWhile (· ≠ '\n')) ≤ s := by
  induction cs generalizing start with
  | nil => cases h
  | cons c cs ih =>
    rw [skipLines] at h
    by_cases hc : c = '\n'
    · rw [if_pos hc] at h
      obtain ⟨before, -, rfl⟩ := exists_before_of_skipLines h
      rw [List.takeWhile_cons_of_neg (by simpa using hc), byteSize]
      omega
    · rw [if_neg hc] at h
      rw [List.takeWhile_cons_of_pos (by simpa using hc), byteSize, ← Nat.add_assoc]
      exact ih h

theorem offset_mono (text : List Char) {p q : Position} (h : p ≤ q) :
    offset text p ≤ offset text q := by
  rcases Position.le_iff.mp h with hline | ⟨hline, hcharacter⟩
  · obtain ⟨n, hn⟩ := Nat.exists_eq_add_of_lt hline
    rw [Nat.add_assoc] at hn
    have hskip := skipLines_add 0 p.line (n + 1) text
    rw [← hn] at hskip
    cases hp : skipLines 0 p.line text with
    | none =>
      rw [hp, Option.bind_none] at hskip
      simp only [offset, hp, hskip, Nat.le_refl]
    | some x =>
      obtain ⟨start, rest⟩ := x
      rw [hp, Option.bind_some] at hskip
      cases hnext : skipLines start (n + 1) rest with
      | none =>
        rw [hnext] at hskip
        have hle := (isBoundary_offset text p).le
        simpa only [offset, hskip] using hle
      | some y =>
        obtain ⟨start', rest'⟩ := y
        rw [hnext] at hskip
        -- The end of the line of `p` lies in front of the line of `q`.
        have hfeed := feed_le_of_skipLines hnext
        have hend := byteSize_firstLine_le rest
        have hcolumn := (isBoundary_columnOffset (firstLine rest) p.character).le
        simp only [offset, hp, hskip]
        omega
  · unfold offset
    rw [hline]
    split
    · exact Nat.le_refl _
    · exact Nat.add_le_add_left (columnOffset_mono _ hcharacter) _

/-! ## From an offset to its position and back -/

theorem firstLine_of_return {l after : List Char} (hl : '\n' ∉ l)
    (hafter : after = [] ∨ after.head? = some '\n') : firstLine (l ++ '\r' :: after) = l := by
  have hline : (l ++ '\r' :: after).takeWhile (· ≠ '\n') = l ++ ['\r'] := by
    rw [List.takeWhile_append_of_pos fun c hc => by simpa using fun he : c = '\n' => hl (he ▸ hc)]
    rw [List.takeWhile_cons_of_pos (by decide)]
    rcases hafter with rfl | hfeed
    · rfl
    · obtain ⟨rest, rfl⟩ := List.head?_eq_some_iff.mp hfeed
      rw [List.takeWhile_cons_of_neg (by decide)]
  unfold firstLine
  rw [hline]
  dsimp only
  rw [if_pos List.getLast?_concat, List.dropLast_concat]

/-- Behind a carriage return at the end of its line, the position is past the end of the line. -/
theorem offset_position_of_return {before after : List Char}
    (hafter : after = [] ∨ after.head? = some '\n') :
    offset (before ++ ['\r'] ++ after)
        (position (before ++ ['\r'] ++ after) (byteSize (before ++ ['\r']))) = byteSize before := by
  obtain ⟨lines, last, rfl, hlines, hlast⟩ := exists_lines before
  have hreturn : '\n' ∉ last ++ ['\r'] := by simpa using hlast
  have hend : columnOffset last (unitSize (last ++ ['\r'])) = byteSize last := by
    apply columnOffset_of_le
    rw [unitSize_append]
    exact Nat.le_add_right _ _
  rw [List.append_assoc (withFeeds lines), offset_position_lines hlines hreturn, List.append_assoc,
    List.singleton_append, firstLine_of_return hlast hafter, hend, byteSize_append]

/-- **Offsets and positions convert back and forth.** Positions are in the order of the offsets
between characters; another offset has the position of the next one below it, an offset past the end
that of the end. Each position leads to an offset between characters, and later positions lead no
further back. The way through its position leads back to the offset, unless it lies behind a
carriage return at the end of a line, which it leads in front of. -/
theorem offsets_and_positions_convert (text : List Char) :
    (∀ a b, IsBoundary text a → IsBoundary text b → a < b →
      position text a < position text b) ∧
    (∀ o, ∃ b, IsGreatest {b | IsBoundary text b ∧ b ≤ o} b ∧
      position text o = position text b) ∧
    (∀ o, byteSize text ≤ o → position text o = position text (byteSize text)) ∧
    (∀ p, IsBoundary text (offset text p) ∧ offset text p ≤ byteSize text) ∧
    (∀ p q, p ≤ q → offset text p ≤ offset text q) ∧
    ∀ before after, text = before ++ after →
      offset text (position text (byteSize before)) =
        if before.getLast? = some '\r' ∧ (after = [] ∨ after.head? = some '\n')
        then byteSize before - 1 else byteSize before := by
  refine ⟨fun a b ha hb => ha.position_lt hb, fun o => ?_, fun o ho => ?_, fun p => ?_,
    fun p q => offset_mono text, ?_⟩
  · exact ⟨floor text o, isGreatest_floor text o, (positionFrom_floor 0 0 text o).symm⟩
  · rw [← floor_of_byteSize_le ho]
    exact (positionFrom_floor 0 0 text o).symm
  · exact ⟨isBoundary_offset text p, (isBoundary_offset text p).le⟩
  · rintro before after rfl
    split
    · next hreturn =>
      obtain ⟨hlast, hafter⟩ := hreturn
      obtain ⟨init, rfl⟩ := List.getLast?_eq_some_iff.mp hlast
      rw [offset_position_of_return hafter, byteSize_append]
      exact (Nat.add_sub_cancel ..).symm
    · next hreturn =>
      apply offset_position
      by_contra hcolumn
      apply hreturn
      rw [IsColumn, not_or, not_not, not_exists] at hcolumn
      refine ⟨hcolumn.1, ?_⟩
      cases after with
      | nil => exact .inl rfl
      | cons c rest =>
        have hc : c = '\n' := by
          by_contra hc
          exact hcolumn.2 c ⟨rest, rfl, hc⟩
        exact .inr (congrArg some hc)

example : position ['é', '\r', '\n'] 3 = ⟨0, 2⟩ ∧ offset ['é', '\r', '\n'] ⟨0, 2⟩ = 2 := by decide

end EventQuery.Source
