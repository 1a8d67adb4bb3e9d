import EventQuery.Proofs.Editor.Scanning
import EventQuery.Proofs.Source.Slices

/-! The words of a text around its offsets. An offset divides the word it touches in two parts, and
what stands around that word is no part of a word (`WordSplit`); so no run of word characters at the
offset goes further than these parts. -/

namespace EventQuery.Editor

open Text Source

/-! ## The text at an offset -/

theorem cut_append_cut (offset : Nat) (text : List Char) :
    (cut offset text).1 ++ (cut offset text).2 = text := by
  fun_induction cut offset text with
  | case1 => rfl
  | case2 offset c cs hc before after hcut ih =>
    rw [hcut] at ih
    exact congrArg (c :: ·) ih
  | case3 => rfl

/-- A text is cut at the offset between characters below. -/
theorem byteSize_cut (offset : Nat) (text : List Char) :
    byteSize (cut offset text).1 = floor text offset := by
  fun_induction cut offset text with
  | case1 => rfl
  | case2 offset c cs hc before after hcut ih =>
    rw [hcut] at ih
    rw [floor, if_neg (by omega), byteSize, ih]
  | case3 offset c cs hc => rw [floor, if_pos (by omega), byteSize]

/-- The word that an offset divides in two parts, and the text around it. -/
structure WordSplit (text : List Char) (offset : Nat) (pre left right post : List Char) : Prop where
  cut : cut offset text = (pre ++ left, right ++ post)
  left : ∀ c ∈ left, isWordChar c = true
  right : ∀ c ∈ right, isWordChar c = true
  pre : ∀ c ∈ pre.getLast?, isWordChar c = false
  post : ∀ c ∈ post.head?, isWordChar c = false

theorem exists_wordSplit (text : List Char) (offset : Nat) :
    ∃ pre left right post, WordSplit text offset pre left right post := by
  obtain ⟨⟨before, after⟩, hcut⟩ : ∃ parts, cut offset text = parts := ⟨_, rfl⟩
  obtain ⟨left, pre, hbefore, -, hleft, hpre⟩ := exists_run isWordChar before.reverse
  obtain ⟨right, post, rfl, -, hright, hpost⟩ := exists_run isWordChar after
  refine ⟨pre.reverse, left.reverse, right, post, ?_, ?_, hright, ?_, hpost⟩
  · rw [hcut, ← List.reverse_append, ← hbefore, List.reverse_reverse]
  · exact fun c hc => hleft c (List.mem_reverse.mp hc)
  · rwa [List.getLast?_reverse]

/-! ## Runs of word characters -/

/-- Word characters that take up a range of a text. -/
structure IsRun (text : List Char) (place : ByteRange) (run : List Char) : Prop where
  slice : slice? text place = some run
  chars : ∀ c ∈ run, isWordChar c = true

theorem IsRun.start_lt_stop {text : List Char} {place : ByteRange} {run : List Char}
    (h : IsRun text place run) (hne : run ≠ []) : place.start < place.stop := by
  obtain ⟨before, after, -, hstart, hstop⟩ := slice?_eq_some_iff.mp h.slice
  obtain ⟨c, run, rfl⟩ := List.exists_cons_of_ne_nil hne
  have hpos := c.utf8Size_pos
  rw [byteSize_append, byteSize] at hstop
  omega

/-- The fragment is the longest run that ends at an offset. -/
structure Fragment.IsLongest (text : List Char) (o : Nat) (f : Fragment) : Prop where
  run : IsRun text ⟨f.start, o⟩ f.chars
  longest : ∀ start run, IsRun text ⟨start, o⟩ run → f.start ≤ start

/-- The word contains or touches an offset, and every run that does is a part of it. -/
structure IsWordAround (text : List Char) (o : Nat) (word : Located ByteRange (List Char)) :
    Prop where
  run : IsRun text word.place word.value
  nonempty : word.value ≠ []
  start_le : word.place.start ≤ o
  le_stop : o ≤ word.place.stop
  longest : ∀ place run, IsRun text place run → place.start ≤ o → o ≤ place.stop →
    word.place.start ≤ place.start ∧ place.stop ≤ word.place.stop

namespace WordSplit

variable {text : List Char} {offset : Nat} {pre left right post : List Char}
  (h : WordSplit text offset pre left right post)
include h

/-- The text in front of the offset and the text behind it. -/
theorem sides_eq : text = pre ++ left ++ (right ++ post) := by
  rw [← cut_append_cut offset text, h.cut]

theorem text_eq : text = pre ++ (left ++ right) ++ post := by
  rw [h.sides_eq]
  simp only [List.append_assoc]

theorem byteSize_eq : byteSize (pre ++ left) = floor text offset := by
  rw [← byteSize_cut, h.cut]

theorem fragmentAt_eq : fragmentAt text offset = ⟨left, byteSize pre⟩ := by
  simp only [fragmentAt, h.cut, wordEnd_append h.left h.pre, beforeWordEnd_append h.left h.pre]

theorem wordAt?_eq : wordAt? text offset = if (left ++ right).isEmpty then none else
    some ⟨left ++ right, ⟨byteSize pre, byteSize (pre ++ (left ++ right))⟩⟩ := by
  simp only [wordAt?, h.cut, wordEnd_append h.left h.pre, beforeWordEnd_append h.left h.pre,
    takeWhile_append_of_head? h.right h.post, byteSize_append]

theorem contextAt_eq : contextAt text offset = contextAfter (scan pre) := by
  simp only [contextAt, h.cut, beforeWordEnd_append h.left h.pre]

theorem isRun_left : IsRun text ⟨byteSize pre, floor text offset⟩ left where
  slice := by
    rw [← h.byteSize_eq, h.sides_eq]
    exact slice?_append pre left (right ++ post)
  chars := h.left

theorem isRun_word : IsRun text ⟨byteSize pre, byteSize (pre ++ (left ++ right))⟩ (left ++ right)
    where
  slice := h.text_eq ▸ slice?_append pre (left ++ right) post
  chars := List.forall_mem_append.mpr ⟨h.left, h.right⟩

/-- The character in front of the word ends every run. -/
theorem le_start {place : ByteRange} {run : List Char} (hrun : IsRun text place run)
    (hstop : floor text offset ≤ place.stop) : byteSize pre ≤ place.start := by
  obtain ⟨before, after, htext, hbefore, hend⟩ := slice?_eq_some_iff.mp hrun.slice
  by_contra hlt
  rw [← h.byteSize_eq, byteSize_append] at hstop
  rw [byteSize_append] at hend
  have hsplit : before ++ (run ++ after) = pre ++ ((left ++ right) ++ post) := by
    rw [← List.append_assoc, ← htext, h.text_eq, List.append_assoc]
  obtain ⟨front, rfl, hfront⟩ := exists_between hsplit (by omega)
  rw [byteSize_append] at hstop hlt
  obtain ⟨rest, rfl, -⟩ := exists_between hfront.symm (by omega)
  -- The end of the text in front of the word is a part of the run.
  cases hlast : front.getLast? with
  | none =>
    rw [List.getLast?_eq_none_iff.mp hlast, byteSize] at hlt
    omega
  | some c =>
    have hword := hrun.chars c (List.mem_append_left rest (List.mem_of_getLast? hlast))
    rw [h.pre c (by rw [List.getLast?_append, hlast]; rfl)] at hword
    cases hword

/-- The character behind the word ends every run. -/
theorem stop_le {place : ByteRange} {run : List Char} (hrun : IsRun text place run)
    (hstart : place.start ≤ floor text offset) :
    place.stop ≤ byteSize (pre ++ (left ++ right)) := by
  obtain ⟨before, after, htext, hbefore, hend⟩ := slice?_eq_some_iff.mp hrun.slice
  by_contra hlt
  rw [← h.byteSize_eq, byteSize_append] at hstart
  have hsplit : pre ++ (left ++ right) ++ post = before ++ run ++ after := by
    rw [← h.text_eq, htext]
  obtain ⟨back, hback, rfl⟩ := exists_between hsplit (by omega)
  obtain ⟨rest, hrest, rfl⟩ := exists_between hback (by simp only [byteSize_append]; omega)
  -- The start of the text behind the word is a part of the run.
  cases back with
  | nil =>
    rw [← hend, hback, List.append_nil] at hlt
    exact hlt (Nat.le_refl _)
  | cons c back =>
    have hword := hrun.chars c (List.mem_append_right rest List.mem_cons_self)
    rw [h.post c rfl] at hword
    cases hword

/-- A run that is not empty has no room between what stands around an empty word. -/
theorem ne_nil_of_isRun {place : ByteRange} {run : List Char} (hrun : IsRun text place run)
    (hne : run ≠ []) (hstart : place.start ≤ floor text offset)
    (hstop : floor text offset ≤ place.stop) : left ++ right ≠ [] := by
  intro hnil
  have hlt := hrun.start_lt_stop hne
  have hle := h.le_start hrun hstop
  have hge := h.stop_le hrun hstart
  rw [hnil, List.append_nil] at hge
  omega

theorem isLongest_fragmentAt : (fragmentAt text offset).IsLongest text (floor text offset) := by
  rw [h.fragmentAt_eq]
  exact ⟨h.isRun_left, fun start run hrun => h.le_start hrun (Nat.le_refl _)⟩

theorem isWordAround (hne : left ++ right ≠ []) : IsWordAround text (floor text offset)
    ⟨left ++ right, ⟨byteSize pre, byteSize (pre ++ (left ++ right))⟩⟩ where
  run := h.isRun_word
  nonempty := hne
  start_le := by
    rw [← h.byteSize_eq, byteSize_append pre left]
    exact Nat.le_add_right (byteSize pre) _
  le_stop := by
    rw [← h.byteSize_eq, ← List.append_assoc, byteSize_append (pre ++ left)]
    exact Nat.le_add_right (byteSize (pre ++ left)) _
  longest place run hrun hstart hstop := ⟨h.le_start hrun hstop, h.stop_le hrun hstart⟩

end WordSplit

/-! ## The word at an offset -/

/-- Two longest words are the same. -/
theorem IsWordAround.unique {text : List Char} {o : Nat} {w w' : Located ByteRange (List Char)}
    (h : IsWordAround text o w) (h' : IsWordAround text o w') : w = w' := by
  obtain ⟨hstart, hstop⟩ := h.longest _ _ h'.run h'.start_le h'.le_stop
  obtain ⟨hstart', hstop'⟩ := h'.longest _ _ h.run h.start_le h.le_stop
  obtain ⟨word, start, stop⟩ := w
  obtain ⟨word', start', stop'⟩ := w'
  obtain rfl : start = start' := Nat.le_antisymm hstart hstart'
  obtain rfl : stop = stop' := Nat.le_antisymm hstop' hstop
  obtain rfl : word = word' := Option.some.inj (h.run.slice.symm.trans h'.run.slice)
  rfl

theorem wordAt?_eq_some_iff {text : List Char} {offset : Nat}
    {w : Located ByteRange (List Char)} :
    wordAt? text offset = some w ↔ IsWordAround text (floor text offset) w := by
  obtain ⟨pre, left, right, post, h⟩ := exists_wordSplit text offset
  rw [h.wordAt?_eq]
  constructor
  · intro hw
    split at hw
    · cases hw
    · next hne =>
      cases hw
      exact h.isWordAround fun hnil => hne (List.isEmpty_iff.mpr hnil)
  · intro hw
    have hne : left ++ right ≠ [] := h.ne_nil_of_isRun hw.run hw.nonempty hw.start_le hw.le_stop
    rw [if_neg fun hnil => hne (List.isEmpty_iff.mp hnil)]
    exact congrArg some ((h.isWordAround hne).unique hw)

/-- There is no word where the characters on both sides are no word characters. -/
theorem wordAt?_eq_none_iff {text : List Char} {offset : Nat} : wordAt? text offset = none ↔
    ∀ place c, slice? text place = some [c] →
      place.stop = floor text offset ∨ place.start = floor text offset →
      isWordChar c = false := by
  obtain ⟨pre, left, right, post, h⟩ := exists_wordSplit text offset
  rw [h.wordAt?_eq]
  constructor
  · intro hnone place c hslice hplace
    have hnil : left ++ right = [] := by
      split at hnone
      · next hnil => exact List.isEmpty_iff.mp hnil
      · cases hnone
    by_contra hc
    have hrun : IsRun text place [c] :=
      ⟨hslice, List.forall_mem_singleton.mpr (Bool.not_eq_false _ ▸ hc)⟩
    have hlt := hrun.start_lt_stop (List.cons_ne_nil c [])
    exact h.ne_nil_of_isRun hrun (List.cons_ne_nil c []) (by omega) (by omega) hnil
  · intro hsides
    have hleft : left = [] := by
      by_contra hne
      obtain ⟨init, c, rfl⟩ : ∃ init c, left = init ++ [c] :=
        ⟨_, _, (List.dropLast_concat_getLast hne).symm⟩
      have hslice : slice? text ⟨byteSize (pre ++ init), floor text offset⟩ = some [c] := by
        rw [← h.byteSize_eq, h.sides_eq, ← List.append_assoc pre init]
        exact slice?_append (pre ++ init) [c] (right ++ post)
      have hword := h.left c (List.mem_append_right init (List.mem_singleton_self c))
      exact Bool.false_ne_true ((hsides _ c hslice (.inl rfl)).symm.trans hword)
    have hright : right = [] := by
      by_contra hne
      obtain ⟨c, rest, rfl⟩ := List.exists_cons_of_ne_nil hne
      have hslice : slice? text ⟨floor text offset, byteSize (pre ++ left ++ [c])⟩ = some [c] := by
        rw [← h.byteSize_eq, h.sides_eq, List.cons_append, List.append_cons]
        exact slice?_append (pre ++ left) [c] (rest ++ post)
      have hword := h.right c List.mem_cons_self
      exact Bool.false_ne_true ((hsides _ c hslice (.inr rfl)).symm.trans hword)
    rw [hleft, hright]
    rfl

end EventQuery.Editor
