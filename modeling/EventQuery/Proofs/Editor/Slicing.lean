import EventQuery.Proofs.Editor.Words
import Mathlib.Data.List.Induction

/-! Words and contexts by offsets alone. Here the scans count offsets, what they find is sliced out
of the text, and everything fails with a slice that is out of range. Nothing does fail: the offsets
lie between characters, around the longest run of word characters at the offset asked for. -/

namespace EventQuery.Editor

open Text Source

namespace Sliced

/-! ## Words -/

/-- The characters of a text with their offsets, the first of which is given. -/
def indexed (offset : Nat) : List Char → List (Nat × Char)
  | [] => []
  | c :: cs => (offset, c) :: indexed (offset + c.utf8Size) cs

/-- The offset clamped to the text and moved back out of a character, then the text in front of it
scanned backwards. -/
def fragmentAt? (text : List Char) (offset : Nat) : Option Fragment := do
  let stop := boundaryBelow text (min offset (byteSize text))
  let before ← slice? text ⟨0, stop⟩
  let run := (indexed 0 before).reverse.takeWhile (isWordChar ·.2)
  let start := (run.getLast?.map (·.1)).getD stop
  let chars ← slice? text ⟨start, stop⟩
  return ⟨chars, start⟩

/-- From the start of the fragment, the text scanned for the end of the word. -/
def wordAt? (text : List Char) (offset : Nat) :
    Option (Option (Located ByteRange (List Char))) := do
  let start := (← fragmentAt? text offset).start
  let rest ← slice? text ⟨start, byteSize text⟩
  let stop := (((indexed 0 rest).find? (!isWordChar ·.2)).map (start + ·.1)).getD (byteSize text)
  if start < stop then
    let word ← slice? text ⟨start, stop⟩
    return some ⟨word, ⟨start, stop⟩⟩
  else return none

/-- Offsets go on behind the bytes of what stands in front. -/
theorem indexed_append (offset : Nat) (a b : List Char) :
    indexed offset (a ++ b) = indexed offset a ++ indexed (offset + byteSize a) b := by
  induction a generalizing offset with
  | nil => rfl
  | cons c a ih => rw [List.cons_append, indexed, ih, indexed, byteSize, Nat.add_assoc]; rfl

theorem forall_mem_indexed {p : Char → Prop} {cs : List Char} (h : ∀ c ∈ cs, p c) (offset : Nat) :
    ∀ x ∈ indexed offset cs, p x.2 := by
  induction cs generalizing offset with
  | nil => exact nofun
  | cons c cs ih =>
    obtain ⟨hc, hcs⟩ := List.forall_mem_cons.mp h
    exact List.forall_mem_cons.mpr ⟨hc, ih hcs _⟩

theorem head?_indexed (offset : Nat) (cs : List Char) :
    (indexed offset cs).head? = cs.head?.map (offset, ·) := by
  cases cs <;> rfl

theorem forall_mem_getLast?_indexed {p : Char → Prop} {cs : List Char}
    (h : ∀ c ∈ cs.getLast?, p c) (offset : Nat) :
    ∀ x ∈ (indexed offset cs).getLast?, p x.2 := by
  intro x hx
  cases hlast : cs.getLast? with
  | none =>
    rw [List.getLast?_eq_none_iff.mp hlast] at hx
    cases hx
  | some c =>
    obtain ⟨init, rfl⟩ := List.getLast?_eq_some_iff.mp hlast
    rw [indexed_append, indexed, indexed, List.getLast?_concat] at hx
    cases hx
    exact h c hlast

/-- The scan backwards ends where the run does. -/
theorem backwards_eq {pre run : List Char} (hrun : ∀ c ∈ run, isWordChar c = true)
    (hpre : ∀ c ∈ pre.getLast?, isWordChar c = false) :
    (((indexed 0 (pre ++ run)).reverse.takeWhile (isWordChar ·.2)).getLast?.map (·.1)).getD
      (byteSize (pre ++ run)) = byteSize pre := by
  rw [indexed_append, List.reverse_append, takeWhile_append_of_head?, List.getLast?_reverse,
    head?_indexed, Nat.zero_add]
  · cases run with
    | nil => rw [List.append_nil]; rfl
    | cons c run => rfl
  · exact fun x hx => forall_mem_indexed hrun _ x (List.mem_reverse.mp hx)
  · rw [List.head?_reverse]
    exact forall_mem_getLast?_indexed hpre 0

/-- The scan forwards ends where the run does. -/
theorem forwards_eq {run post : List Char} (hrun : ∀ c ∈ run, isWordChar c = true)
    (hpost : ∀ c ∈ post.head?, isWordChar c = false) (start : Nat) :
    (((indexed 0 (run ++ post)).find? (!isWordChar ·.2)).map (start + ·.1)).getD
      (start + byteSize (run ++ post)) = start + byteSize run := by
  have hnone : (indexed 0 run).find? (!isWordChar ·.2) = none := by
    refine List.find?_eq_none.mpr fun x hx => ?_
    simp [forall_mem_indexed hrun 0 x hx]
  rw [indexed_append, List.find?_append, hnone, Option.none_or, Nat.zero_add]
  cases post with
  | nil => rw [List.append_nil]; rfl
  | cons c post =>
    rw [indexed, List.find?_cons_of_pos (by simp [hpost c rfl])]
    rfl

section
variable (text : List Char) (offset : Nat)

/-- The fragment is sliced at boundaries, so it is always there. -/
theorem fragmentAt?_eq : fragmentAt? text offset = some (fragmentAt text offset) := by
  obtain ⟨pre, left, right, post, h⟩ := exists_wordSplit text offset
  have hbefore : slice? text ⟨0, floor text offset⟩ = some (pre ++ left) := by
    rw [← h.byteSize_eq, h.sides_eq]
    exact slice?_front (pre ++ left) (right ++ post)
  rw [fragmentAt?, boundaryBelow_eq_floor, floor_min, hbefore]
  dsimp only [Option.bind_eq_bind, Option.bind_some]
  rw [← h.byteSize_eq, backwards_eq h.left h.pre, h.byteSize_eq, h.isRun_left.slice,
    h.fragmentAt_eq]
  rfl

theorem wordAt?_eq : wordAt? text offset = some (Editor.wordAt? text offset) := by
  obtain ⟨pre, left, right, post, h⟩ := exists_wordSplit text offset
  have hrest : slice? text ⟨byteSize pre, byteSize text⟩ = some (left ++ right ++ post) := by
    rw [h.text_eq, List.append_assoc pre]
    exact slice?_back pre (left ++ right ++ post)
  have hend : byteSize text = byteSize pre + byteSize (left ++ right ++ post) := by
    rw [h.text_eq, List.append_assoc, byteSize_append]
  have hword : ∀ c ∈ left ++ right, isWordChar c = true :=
    List.forall_mem_append.mpr ⟨h.left, h.right⟩
  rw [wordAt?, fragmentAt?_eq, h.fragmentAt_eq]
  dsimp only [Option.bind_eq_bind, Option.bind_some]
  rw [hrest]
  dsimp only [Option.bind_some]
  rw [hend, forwards_eq hword h.post, ← byteSize_append, h.isRun_word.slice, h.wordAt?_eq]
  by_cases hne : left ++ right = []
  · rw [hne, List.append_nil, if_neg (Nat.lt_irrefl _)]
    rfl
  · rw [if_pos (h.isRun_word.start_lt_stop hne),
      if_neg fun hnil => hne (List.isEmpty_iff.mp hnil)]
    rfl

end

/-! ## Contexts -/

/-- The pieces of a text from an offset on, with the words sliced out of the whole text. -/
def scanFrom? (text : List Char) (offset skip : Nat) : List Char → Option (List Piece)
  | [] => some []
  | c :: cs =>
    match skip with
    | skip + 1 => scanFrom? text (offset + c.utf8Size) skip cs
    | 0 =>
      if isBlank c then scanFrom? text (offset + c.utf8Size) 0 cs
      else if c = '-' && cs.head? = some '-' then
        scanFrom? text (offset + c.utf8Size) ((cs.takeWhile (· != '\n')).length + 1) cs
      else if c = '\'' || c = '"' then do
        let pieces ← scanFrom? text (offset + c.utf8Size) ((cs.takeWhile (· != c)).length + 1) cs
        return .other :: pieces
      else if c = '(' then do
        return .opening :: (← scanFrom? text (offset + c.utf8Size) 0 cs)
      else if c = ')' then do
        return .closing :: (← scanFrom? text (offset + c.utf8Size) 0 cs)
      else if c = ',' then do
        return .comma :: (← scanFrom? text (offset + c.utf8Size) 0 cs)
      else if isAlphabetic c || c = '_' then do
        let run := cs.takeWhile isWordChar
        let word ← slice? text ⟨offset, offset + byteSize (c :: run)⟩
        return .word word :: (← scanFrom? text (offset + c.utf8Size) run.length cs)
      else do
        return .other :: (← scanFrom? text (offset + c.utf8Size) 0 cs)

/-- The members from an index on. -/
def dropFrom? {α : Type} (xs : List α) (i : Nat) : Option (List α) :=
  if i ≤ xs.length then some (xs.drop i) else none

/-- What the pieces so far have opened, with the clause that began last as the index of the first
piece in its brackets. -/
structure Mark where
  depth : Nat
  event : Option String
  clauseStart : Nat

def Mark.step (m : Mark) : Piece × Nat → Mark
  | (.opening, i) => ⟨m.depth + 1, m.event, if m.depth = 0 then i + 1 else m.clauseStart⟩
  | (.closing, _) => ⟨m.depth - 1, m.event, m.clauseStart⟩
  | (.word chars, _) =>
    ⟨m.depth, Progress.eventAfter ⟨m.depth, m.event, []⟩ chars, m.clauseStart⟩
  | _ => m

/-- Whether a clause is at its list of entities: the pieces behind its first one are only looked at
when that one is `using`. -/
def inUsing? (depth : Nat) (clause : List Piece) : Option Bool :=
  if depth = 1 && clause.head?.bind (·.keyword?) = some .usingList then
    (dropFrom? clause 1).map (·.all (·.isListed))
  else some false

/-- Inside brackets the pieces of the clause are looked at; outside of them nothing is sliced. -/
def contextAfter? (pieces : List Piece) : Option Context :=
  let mark := pieces.zipIdx.foldl Mark.step ⟨0, none, 0⟩
  if 0 < mark.depth then do
    let clause ← dropFrom? pieces mark.clauseStart
    let listed ← inUsing? mark.depth clause
    return .clause mark.event listed
  else some (contextAfter pieces)

/-- The context read from the text in front of the fragment. -/
def contextAt? (text : List Char) (offset : Nat) : Option Context := do
  let fragment ← fragmentAt? text offset
  let before ← slice? text ⟨0, fragment.start⟩
  let pieces ← scanFrom? before 0 0 before
  contextAfter? pieces

/-- Every word that the scan slices out starts and ends between characters, whatever was scanned in
front. -/
theorem scanFrom?_eq (front cs : List Char) (skip : Nat) :
    scanFrom? (front ++ cs) (byteSize front) skip cs = some (scanFrom skip cs) := by
  -- On the text that is left; what is sliced is the text with all that was scanned in front.
  induction cs generalizing front skip with
  | nil => rw [scanFrom?, scanFrom]
  | cons c cs ih =>
    have hnext (skip : Nat) : scanFrom? (front ++ c :: cs) (byteSize front + c.utf8Size) skip cs =
        some (scanFrom skip cs) := by
      have hrest := ih (front ++ [c]) skip
      rwa [List.append_assoc, byteSize_append] at hrest
    have hword : slice? (front ++ c :: cs)
        ⟨byteSize front, byteSize front + byteSize (c :: cs.takeWhile isWordChar)⟩ =
          some (c :: cs.takeWhile isWordChar) := by
      refine slice?_eq_some_iff.mpr ⟨front, cs.dropWhile isWordChar, ?_, rfl, byteSize_append ..⟩
      rw [List.append_assoc, List.cons_append, List.takeWhile_append_dropWhile]
    cases skip with
    | succ skip => rw [scanFrom?, scanFrom, hnext]
    | zero =>
      simp only [scanFrom?, scanFrom, hnext, hword]
      split_ifs <;> rfl

/-- The mark agrees with the progress through the pieces, and its index is within them. -/
structure Mark.Tracks (m : Mark) (p : Progress) (pieces : List Piece) : Prop where
  depth : m.depth = p.depth
  event : m.event = p.event
  le : m.clauseStart ≤ pieces.length
  clause : pieces.drop m.clauseStart = p.clause

theorem Mark.Tracks.step {m : Mark} {p : Progress} {pieces : List Piece} (h : m.Tracks p pieces)
    (piece : Piece) :
    (m.step (piece, pieces.length)).Tracks (p.step piece) (pieces ++ [piece]) := by
  obtain ⟨depth, event, start⟩ := m
  obtain ⟨rfl, rfl, hle, hclause⟩ := h
  dsimp only at hle hclause
  have hlength : start ≤ (pieces ++ [piece]).length := by
    rw [List.length_append]
    omega
  have hmore : (pieces ++ [piece]).drop start = p.clause ++ [piece] := by
    rw [List.drop_append_of_le_length hle, hclause]
  cases piece with
  | opening =>
    by_cases hdepth : p.depth = 0
    · refine ⟨?_, ?_, ?_, ?_⟩ <;> simp [Mark.step, Progress.step, hdepth]
    · refine ⟨?_, ?_, ?_, ?_⟩
      all_goals simp only [Mark.step, Progress.step, if_neg hdepth]
      · exact hlength
      · exact hmore
  | closing | word | comma | other => exact ⟨rfl, rfl, hlength, hmore⟩

theorem tracks_foldl (pieces : List Piece) : (pieces.zipIdx.foldl Mark.step ⟨0, none, 0⟩).Tracks
    (pieces.foldl Progress.step .start) pieces := by
  induction pieces using List.reverseRecOn with
  | nil => exact ⟨rfl, rfl, Nat.le_refl 0, rfl⟩
  | append_singleton pieces piece ih =>
    rw [List.zipIdx_append, List.foldl_append, List.foldl_append, Nat.zero_add]
    exact ih.step piece

theorem dropFrom?_of_le {α : Type} {xs : List α} {i : Nat} (h : i ≤ xs.length) :
    dropFrom? xs i = some (xs.drop i) :=
  if_pos h

/-- The slice of the pieces of a clause is in range, for a clause starts in front of its end. -/
theorem inUsing?_eq (p : Progress) : inUsing? p.depth p.clause = some p.inUsing := by
  rw [inUsing?, Progress.inUsing]
  cases p.clause with
  | nil => simp
  | cons first rest =>
    rw [dropFrom?_of_le (Nat.le_add_left 1 rest.length), List.head?_cons, Option.bind_some]
    by_cases hfirst : p.depth = 1 ∧ first.keyword? = some .usingList
    · simp [hfirst.1, hfirst.2]
    · rw [if_neg (by simpa using hfirst)]
      congr 1
      grind

theorem contextAfter?_eq (pieces : List Piece) :
    contextAfter? pieces = some (contextAfter pieces) := by
  obtain ⟨hdepth, hevent, hle, hclause⟩ := tracks_foldl pieces
  unfold contextAfter?
  dsimp only
  split
  · next hopen =>
    have hne : pieces.isEmpty = false := by
      cases pieces with
      | nil => cases hopen
      | cons => rfl
    rw [hdepth] at hopen
    rw [dropFrom?_of_le hle, hclause, hdepth, hevent]
    dsimp only [Option.bind_eq_bind, Option.bind_some]
    rw [inUsing?_eq, contextAfter, hne, if_neg Bool.false_ne_true, if_pos hopen]
    rfl
  · rfl

/-- Finding the context never fails. -/
theorem contextAt?_eq (text : List Char) (offset : Nat) :
    contextAt? text offset = some (contextAt text offset) := by
  obtain ⟨pre, left, right, post, h⟩ := exists_wordSplit text offset
  have hbefore : slice? text ⟨0, byteSize pre⟩ = some pre := by
    rw [h.text_eq, List.append_assoc]
    exact slice?_front pre (left ++ right ++ post)
  have hscan : scanFrom? pre 0 0 pre = some (scan pre) := scanFrom?_eq [] pre 0
  rw [contextAt?, fragmentAt?_eq, h.fragmentAt_eq]
  dsimp only [Option.bind_eq_bind, Option.bind_some]
  rw [hbefore, Option.bind_some, hscan, Option.bind_some, contextAfter?_eq, h.contextAt_eq]

end Sliced

/-- **Words are found whole and sliced safely.** The offset that counts is the last one between
characters up to the given one and the end. The fragment is the longest run of word characters that
ends there, the word the longest that contains or touches it, and there is none exactly when neither
the character in front nor the one behind is a word character. Fragments and words start and stop
between characters, and no slice that is taken for them or for the context is out of range. -/
theorem words_longest_and_sliced (text : List Char) (offset : Nat) :
    ∃ o, IsGreatest {b | IsBoundary text b ∧ b ≤ min offset (byteSize text)} o ∧
      (fragmentAt text offset).IsLongest text o ∧
      (∀ w, wordAt? text offset = some w ↔ IsWordAround text o w) ∧
      (wordAt? text offset = none ↔ ∀ place c, slice? text place = some [c] →
        place.stop = o ∨ place.start = o → isWordChar c = false) ∧
      IsBoundary text (fragmentAt text offset).start ∧
      (∀ w, wordAt? text offset = some w →
        IsBoundary text w.place.start ∧ IsBoundary text w.place.stop) ∧
      Sliced.fragmentAt? text offset = some (fragmentAt text offset) ∧
      Sliced.wordAt? text offset = some (wordAt? text offset) ∧
      Sliced.contextAt? text offset = some (contextAt text offset) := by
  obtain ⟨pre, left, right, post, h⟩ := exists_wordSplit text offset
  have hlongest := h.isLongest_fragmentAt
  refine ⟨floor text offset, ?_, hlongest, fun w => wordAt?_eq_some_iff, wordAt?_eq_none_iff,
    (isBoundary_of_slice? hlongest.run.slice).1, fun w hw => ?_, Sliced.fragmentAt?_eq text offset,
    Sliced.wordAt?_eq text offset, Sliced.contextAt?_eq text offset⟩
  · rw [← floor_min]
    exact isGreatest_floor text _
  · exact isBoundary_of_slice? (wordAt?_eq_some_iff.mp hw).run.slice

example : fragmentAt ['é', 'a', ' '] 1 = ⟨[], 0⟩ ∧
    wordAt? ['é', 'a', ' '] 1 = some ⟨['é', 'a'], ⟨0, 3⟩⟩ := by
  decide +kernel

end EventQuery.Editor
