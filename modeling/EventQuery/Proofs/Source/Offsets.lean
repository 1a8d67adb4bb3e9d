import EventQuery.Source.Offset

/-! Offsets and positions of one text. Positions go up with offsets, and an offset between two
characters is found again from its position, unless it lies between a carriage return and the end of
the line, which is no column of the line. -/

namespace EventQuery

namespace Position

theorem le_iff {a b : Position} :
    a ≤ b ↔ a.line < b.line ∨ a.line = b.line ∧ a.character ≤ b.character := Iff.rfl

theorem le_refl (a : Position) : a ≤ a := le_iff.mpr (.inr ⟨rfl, Nat.le_refl _⟩)

theorem le_trans {a b c : Position} (hab : a ≤ b) (hbc : b ≤ c) : a ≤ c := by
  rw [le_iff] at hab hbc ⊢
  omega

theorem lt_iff {a b : Position} :
    a < b ↔ a.line < b.line ∨ a.line = b.line ∧ a.character < b.character := Iff.rfl

/-- Positions are in a linear order. -/
theorem not_le {a b : Position} : ¬a ≤ b ↔ b < a := by
  rw [le_iff, lt_iff]
  omega

theorem lt_of_lt_of_le {a b c : Position} (hab : a < b) (hbc : b ≤ c) : a < c := by
  rw [lt_iff] at hab ⊢
  rw [le_iff] at hbc
  omega

end Position

namespace Source

open Text

/-! ## Order -/

theorem le_positionFrom (line character : Nat) (cs : List Char) (offset : Nat) :
    ⟨line, character⟩ ≤ positionFrom line character cs offset := by
  induction cs generalizing line character offset with
  | nil => exact Position.le_refl _
  | cons c cs ih =>
    rw [positionFrom]
    split
    · exact Position.le_refl _
    · split
      · refine Position.le_trans ?_ (ih (line + 1) 0 _)
        exact Position.le_iff.mpr (.inl (Nat.lt_succ_self line))
      · refine Position.le_trans ?_ (ih line (character + unitsOf c) _)
        exact Position.le_iff.mpr (.inr ⟨rfl, Nat.le_add_right _ _⟩)

/-- By the recursion of the scan: a step that both offsets take leaves their order as it is. -/
theorem positionFrom_mono (line character : Nat) (cs : List Char) {a b : Nat} (h : a ≤ b) :
    positionFrom line character cs a ≤ positionFrom line character cs b := by
  induction cs generalizing line character a b with
  | nil => exact Position.le_refl _
  | cons c cs ih =>
    by_cases ha : a < c.utf8Size
    · rw [positionFrom, if_pos ha]
      exact le_positionFrom line character (c :: cs) b
    · have hb : ¬b < c.utf8Size := by omega
      have hsub : a - c.utf8Size ≤ b - c.utf8Size := by omega
      simp only [positionFrom, if_neg ha, if_neg hb]
      split
      · exact ih _ _ hsub
      · exact ih _ _ hsub

theorem position_mono (text : List Char) {a b : Nat} (h : a ≤ b) :
    position text a ≤ position text b := positionFrom_mono 0 0 text h

/-- Behind a character the position is a later one than in front of it. -/
theorem positionFrom_lt (line character : Nat) (before : List Char) {c : Char} {rest : List Char}
    {b : Nat} (h : byteSize before + c.utf8Size ≤ b) :
    positionFrom line character (before ++ c :: rest) (byteSize before) <
      positionFrom line character (before ++ c :: rest) b := by
  induction before generalizing line character b with
  | nil =>
    rw [byteSize] at h ⊢
    have hb : ¬b < c.utf8Size := by omega
    rw [List.nil_append, positionFrom, if_pos c.utf8Size_pos, positionFrom, if_neg hb]
    split
    · refine Position.lt_of_lt_of_le ?_ (le_positionFrom (line + 1) 0 rest _)
      exact Position.lt_iff.mpr (.inl (Nat.lt_succ_self line))
    · refine Position.lt_of_lt_of_le ?_ (le_positionFrom line (character + unitsOf c) rest _)
      exact Position.lt_iff.mpr (.inr ⟨rfl, Nat.lt_add_of_pos_right (unitsOf_pos c)⟩)
  | cons d before ih =>
    rw [byteSize] at h ⊢
    have ha : ¬d.utf8Size + byteSize before < d.utf8Size := by omega
    have hb : ¬b < d.utf8Size := by omega
    have hsub : d.utf8Size + byteSize before - d.utf8Size = byteSize before := by omega
    have hle : byteSize before + c.utf8Size ≤ b - d.utf8Size := by omega
    simp only [List.cons_append, positionFrom, if_neg ha, if_neg hb, hsub]
    split
    · exact ih (line + 1) 0 hle
    · exact ih line (character + unitsOf d) hle

/-- An offset behind a character has a later position than the one in front of it. -/
theorem position_lt {before rest : List Char} {c : Char} {b : Nat}
    (h : byteSize before + c.utf8Size ≤ b) :
    position (before ++ c :: rest) (byteSize before) < position (before ++ c :: rest) b :=
  positionFrom_lt 0 0 before h

/-! ## Bounds -/

/-- A scan goes up by a line or by the units of a character for each character, which has as many
bytes at least. -/
theorem positionFrom_le (line character : Nat) (cs : List Char) (offset : Nat) :
    (positionFrom line character cs offset).line ≤ line + byteSize cs ∧
      (positionFrom line character cs offset).character ≤ character + byteSize cs := by
  induction cs generalizing line character offset with
  | nil => exact ⟨Nat.le_refl _, Nat.le_refl _⟩
  | cons c cs ih =>
    have hpos := c.utf8Size_pos
    have hunits := unitsOf_le_utf8Size c
    rw [positionFrom, byteSize]
    split
    · exact ⟨Nat.le_add_right _ _, Nat.le_add_right _ _⟩
    · split
      · obtain ⟨hline, hcharacter⟩ := ih (line + 1) 0 (offset - c.utf8Size)
        omega
      · obtain ⟨hline, hcharacter⟩ := ih line (character + unitsOf c) (offset - c.utf8Size)
        omega

/-- Lines and columns fit 32 bits in a text whose size does. -/
theorem position_lt_of_byteSize_lt {text : List Char} (h : byteSize text < UInt32.size)
    (offset : Nat) : (position text offset).line < UInt32.size ∧
      (position text offset).character < UInt32.size := by
  obtain ⟨hline, hcharacter⟩ := positionFrom_le 0 0 text offset
  rw [position]
  omega

/-! ## From an offset to its position and back -/

/-- Lines, each with the line feed behind it. -/
def withFeeds (lines : List (List Char)) : List Char := lines.flatMap (· ++ ['\n'])

theorem withFeeds_cons (l : List Char) (lines : List (List Char)) :
    withFeeds (l :: lines) = l ++ '\n' :: withFeeds lines := by
  simp [withFeeds]

theorem exists_lines (cs : List Char) : ∃ lines last,
    cs = withFeeds lines ++ last ∧ (∀ l ∈ lines, '\n' ∉ l) ∧ '\n' ∉ last := by
  induction cs with
  | nil => exact ⟨[], [], rfl, nofun, nofun⟩
  | cons c cs ih =>
    obtain ⟨lines, last, rfl, hlines, hlast⟩ := ih
    by_cases hc : c = '\n'
    · refine ⟨[] :: lines, last, ?_, ?_, hlast⟩
      · rw [hc]
        rfl
      · exact List.forall_mem_cons.mpr ⟨nofun, hlines⟩
    · have hne : ∀ {l : List Char}, '\n' ∉ l → '\n' ∉ c :: l := fun hl hmem =>
        (List.mem_cons.mp hmem).elim (fun he => hc he.symm) hl
      cases lines with
      | nil => exact ⟨[], c :: last, rfl, nofun, hne hlast⟩
      | cons l lines =>
        obtain ⟨hl, hlines⟩ := List.forall_mem_cons.mp hlines
        exact ⟨(c :: l) :: lines, last, rfl, List.forall_mem_cons.mpr ⟨hne hl, hlines⟩, hlast⟩

theorem positionFrom_zero (line character : Nat) (cs : List Char) :
    positionFrom line character cs 0 = ⟨line, character⟩ := by
  cases cs with
  | nil => rfl
  | cons c cs => rw [positionFrom, if_pos c.utf8Size_pos]

/-- Characters of one line are counted in units. -/
theorem positionFrom_line {l : List Char} (hl : '\n' ∉ l) (line character : Nat) (rest : List Char)
    (offset : Nat) : positionFrom line character (l ++ rest) (byteSize l + offset) =
      positionFrom line (character + unitSize l) rest offset := by
  induction l generalizing character with
  | nil => simp [byteSize, unitSize]
  | cons c l ih =>
    have hc : c ≠ '\n' := fun he => hl (he ▸ List.mem_cons_self)
    have hl : '\n' ∉ l := fun hmem => hl (List.mem_cons_of_mem c hmem)
    have hsub : c.utf8Size + byteSize l + offset - c.utf8Size = byteSize l + offset := by omega
    rw [List.cons_append, positionFrom, if_neg (by rw [byteSize]; omega), if_neg hc, byteSize, hsub,
      ih hl, unitSize, Nat.add_assoc]

theorem positionFrom_withFeeds {lines : List (List Char)} (h : ∀ l ∈ lines, '\n' ∉ l)
    (line : Nat) (rest : List Char) (offset : Nat) :
    positionFrom line 0 (withFeeds lines ++ rest) (byteSize (withFeeds lines) + offset) =
      positionFrom (line + lines.length) 0 rest offset := by
  induction lines generalizing line with
  | nil => simp [withFeeds, byteSize]
  | cons l lines ih =>
    obtain ⟨hl, hlines⟩ := List.forall_mem_cons.mp h
    have hsub : '\n'.utf8Size + byteSize (withFeeds lines) + offset - '\n'.utf8Size =
        byteSize (withFeeds lines) + offset := by omega
    rw [withFeeds_cons, byteSize_append, List.append_assoc, Nat.add_assoc, positionFrom_line hl,
      List.cons_append, positionFrom, byteSize, if_neg (by omega), if_pos rfl, hsub, ih hlines,
      List.length_cons]
    congr 1
    omega

theorem skipLines_line {l : List Char} (hl : '\n' ∉ l) (start n : Nat) (rest : List Char) :
    skipLines start (n + 1) (l ++ '\n' :: rest) =
      skipLines (start + byteSize l + '\n'.utf8Size) n rest := by
  induction l generalizing start with
  | nil => rw [List.nil_append, skipLines, if_pos rfl, byteSize, Nat.add_zero]
  | cons c l ih =>
    have hc : c ≠ '\n' := fun he => hl (he ▸ List.mem_cons_self)
    have hl : '\n' ∉ l := fun hmem => hl (List.mem_cons_of_mem c hmem)
    rw [List.cons_append, skipLines, if_neg hc, ih hl, byteSize, Nat.add_assoc start]

/-- Lines are skipped up to the end of the line feed behind each. -/
theorem skipLines_withFeeds {lines : List (List Char)} (h : ∀ l ∈ lines, '\n' ∉ l) (start : Nat)
    (rest : List Char) : skipLines start lines.length (withFeeds lines ++ rest) =
      some (start + byteSize (withFeeds lines), rest) := by
  induction lines generalizing start with
  | nil => simp [withFeeds, skipLines, byteSize]
  | cons l lines ih =>
    obtain ⟨hl, hlines⟩ := List.forall_mem_cons.mp h
    rw [withFeeds_cons, List.append_assoc, List.length_cons, List.cons_append, skipLines_line hl,
      ih hlines, byteSize_append, byteSize]
    congr 2
    omega

/-- The units of a line that has been passed lead to its bytes. -/
theorem columnOffset_append (l rest : List Char) :
    columnOffset (l ++ rest) (unitSize l) = byteSize l := by
  induction l with
  | nil => cases rest <;> rfl
  | cons c l ih =>
    have hpos := unitsOf_pos c
    rw [List.cons_append, columnOffset, unitSize, if_neg (by omega), Nat.add_sub_cancel_left, ih,
      byteSize]

/-- An offset behind a carriage return at the end of a line is no column of the line. -/
def IsColumn (before after : List Char) : Prop :=
  before.getLast? ≠ some '\r' ∨ ∃ c rest, after = c :: rest ∧ c ≠ '\n'

theorem firstLine_append {l after : List Char} (hl : '\n' ∉ l) (h : IsColumn l after) :
    ∃ rest, firstLine (l ++ after) = l ++ rest := by
  have htake : (l ++ after).takeWhile (· ≠ '\n') = l ++ after.takeWhile (· ≠ '\n') := by
    refine List.takeWhile_append_of_pos fun c hc => ?_
    simpa using fun he : c = '\n' => hl (he ▸ hc)
  unfold firstLine
  rw [htake]
  dsimp only
  split
  · next hreturn =>
    -- The carriage return that is dropped stands behind `l`.
    have hne : after.takeWhile (· ≠ '\n') ≠ [] := by
      intro hnil
      rw [hnil, List.append_nil] at hreturn
      obtain hlast | ⟨c, rest, rfl, hc⟩ := h
      · exact hlast hreturn
      · rw [List.takeWhile_cons_of_pos (by simpa using hc)] at hnil
        cases hnil
    exact ⟨_, List.dropLast_append_of_ne_nil hne⟩
  · exact ⟨_, rfl⟩

/-- The position of an offset leads back to its line, and there to its column. -/
theorem offset_position_lines {lines : List (List Char)} {last : List Char}
    (hlines : ∀ l ∈ lines, '\n' ∉ l) (hlast : '\n' ∉ last) (after : List Char) :
    offset (withFeeds lines ++ last ++ after)
        (position (withFeeds lines ++ last ++ after) (byteSize (withFeeds lines ++ last))) =
      byteSize (withFeeds lines) + columnOffset (firstLine (last ++ after)) (unitSize last) := by
  have hposition : position (withFeeds lines ++ last ++ after)
      (byteSize (withFeeds lines ++ last)) = ⟨lines.length, unitSize last⟩ := by
    have hstop := positionFrom_line hlast lines.length 0 after 0
    rw [positionFrom_zero, Nat.add_zero, Nat.zero_add] at hstop
    rw [position, byteSize_append, List.append_assoc, positionFrom_withFeeds hlines, Nat.zero_add,
      hstop]
  rw [hposition, offset, List.append_assoc, skipLines_withFeeds hlines, Nat.zero_add]

/-- The offset between two characters is found again from its position. -/
theorem offset_position {before after : List Char} (h : IsColumn before after) :
    offset (before ++ after) (position (before ++ after) (byteSize before)) = byteSize before := by
  obtain ⟨lines, last, rfl, hlines, hlast⟩ := exists_lines before
  have hcolumn : IsColumn last after := by
    refine h.imp_left fun hne he => hne ?_
    rw [List.getLast?_append, he]
    rfl
  obtain ⟨rest, hline⟩ := firstLine_append hlast hcolumn
  rw [offset_position_lines hlines hlast, hline, columnOffset_append, byteSize_append]

end Source

end EventQuery
