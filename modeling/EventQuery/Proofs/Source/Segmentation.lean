import EventQuery.Proofs.Source.Lexing

/-! Cutting a text into tokens loses nothing. A text that can be cut is made of spellings with
blanks and comments in front of them and at its end, and each spelling alone is cut into its token;
and spellings with gaps between them, whatever they are, are cut into their tokens. -/

namespace EventQuery.Source

open Text

/-- Blanks, and comments up to the end of their line. -/
inductive IsGap : List Char → Prop
  | nil : IsGap []
  | blank {c : Char} {cs : List Char} : isBlank c = true → IsGap cs → IsGap (c :: cs)
  | comment {body cs : List Char} : '\n' ∉ body → IsGap ('\n' :: cs) →
    IsGap ('-' :: '-' :: body ++ '\n' :: cs)

/-- At the end of a text, the last comment may go up to that end. -/
inductive IsLastGap : List Char → Prop
  | gap {cs : List Char} : IsGap cs → IsLastGap cs
  | comment {cs body : List Char} : IsGap cs → '\n' ∉ body → IsLastGap (cs ++ '-' :: '-' :: body)

/-- A token as it is written, and what stands in front of it. -/
structure Segment where
  gap : List Char
  word : List Char
  token : Token
  isGap : IsGap gap
  spelled : token.HasSpelling word

namespace Segment

def text (s : Segment) : List Char := s.gap ++ s.word

/-- The tokens of a text that starts at `offset`, where they are written. -/
def lexemes (offset : Nat) : List Segment → List Lexeme
  | [] => []
  | s :: rest =>
    let start := offset + byteSize s.gap
    let stop := start + byteSize s.word
    ⟨s.token, ⟨start, stop⟩⟩ :: lexemes stop rest

end Segment

/-! ## Gaps and spellings are cut -/

theorem IsGap.ends {gap : List Char} (h : IsGap gap) (hne : gap ≠ []) (rest : List Char) :
    Ends (gap ++ rest) := by
  cases h with
  | nil => exact absurd rfl hne
  | blank hc => exact fun d hd => .inl (Option.some.inj hd ▸ hc)
  | comment => exact fun d hd => .inr (Option.some.inj hd).symm

theorem IsLastGap.ends {last : List Char} (h : IsLastGap last) : Ends last := by
  cases h with
  | @gap cs h =>
    by_cases hne : last = []
    · rw [hne]
      nofun
    · exact List.append_nil last ▸ h.ends hne []
  | @comment cs body h _ =>
    by_cases hne : cs = []
    · rw [hne]
      exact fun d hd => .inr (Option.some.inj hd).symm
    · exact h.ends hne _

theorem lexFrom_blank {c : Char} (hc : isBlank c = true) (offset : Nat) (cs : List Char) :
    lexFrom offset (c :: cs) = lexFrom (offset + c.utf8Size) cs := by
  have hfront : front c cs = .gap 0 := by rw [front, if_pos hc]
  rw [lexFrom, hfront]
  rfl

/-- A comment ends in front of a line feed or at the end of the text; the line feed is a blank of
its own. -/
theorem lexFrom_comment {body cs : List Char} (hbody : '\n' ∉ body)
    (hcs : ∀ c ∈ cs.head?, c = '\n') (offset : Nat) :
    lexFrom offset ('-' :: '-' :: body ++ cs) =
      lexFrom (offset + byteSize ('-' :: '-' :: body)) cs := by
  have hrun : (body ++ cs).takeWhile (· ≠ '\n') = body := by
    refine takeWhile_append_of_head? (fun c hc => ?_) fun c hc => by simp [hcs c hc]
    simpa using fun he : c = '\n' => hbody (he ▸ hc)
  have hfront : front '-' ('-' :: (body ++ cs)) = .gap (1 + body.length) := by
    show dashFront ('-' :: (body ++ cs)) = _
    rw [dashFront, hrun]
  rw [List.cons_append, List.cons_append, lexFrom, hfront]
  dsimp only
  rw [Nat.add_comm 1, List.take_succ_cons, List.drop_succ_cons, List.take_left, List.drop_left]

/-- A gap is passed, whatever stands behind it. -/
theorem lexFrom_gap {gap : List Char} (h : IsGap gap) (offset : Nat) (rest : List Char) :
    lexFrom offset (gap ++ rest) = lexFrom (offset + byteSize gap) rest := by
  induction h generalizing offset with
  | nil => rfl
  | blank hc _ ih => rw [List.cons_append, lexFrom_blank hc, ih, byteSize, Nat.add_assoc]
  | comment hbody _ ih =>
    rw [List.append_assoc, lexFrom_comment hbody, ih, byteSize_append, Nat.add_assoc]
    exact fun c hc => (Option.some.inj hc).symm

theorem lexFrom_last {last : List Char} (h : IsLastGap last) (offset : Nat) :
    lexFrom offset last = .ok [] := by
  cases h with
  | gap h =>
    rw [← List.append_nil last, lexFrom_gap h, lexFrom]
  | @comment cs body h hbody =>
    rw [lexFrom_gap h, ← List.append_nil ('-' :: '-' :: body), lexFrom_comment hbody (by simp),
      lexFrom]

/-- A spelling is cut as the token it spells, at its place, if nothing behind it goes on with it. -/
theorem lexFrom_word {t : Token} {word : List Char} (h : t.HasSpelling word) {rest : List Char}
    (hrest : Ends rest) {offset : Nat} {lexemes : List Lexeme}
    (hlexemes : lexFrom (offset + byteSize word) rest = .ok lexemes) :
    lexFrom offset (word ++ rest) =
      .ok (⟨t, ⟨offset, offset + byteSize word⟩⟩ :: lexemes) := by
  obtain ⟨c, run, rfl, hfront⟩ := front_of_hasSpelling h hrest
  rw [List.cons_append, lexFrom, hfront]
  dsimp only
  rw [List.take_left, List.drop_left, hlexemes]

/-- Every gap but the first has to be there: two spellings without one might read as a single
token. -/
theorem lexFrom_segments {segments : List Segment} (hgap : ∀ s ∈ segments.tail, s.gap ≠ [])
    {last : List Char} (hlast : IsLastGap last) (offset : Nat) :
    lexFrom offset (segments.flatMap Segment.text ++ last) =
      .ok (Segment.lexemes offset segments) := by
  induction segments generalizing offset with
  | nil => exact lexFrom_last hlast offset
  | cons s rest ih =>
    rw [List.tail_cons] at hgap
    have hrest := ih (fun x hx => hgap x (List.mem_of_mem_tail hx))
      (offset + byteSize s.gap + byteSize s.word)
    have hends : Ends (rest.flatMap Segment.text ++ last) := by
      cases rest with
      | nil => exact hlast.ends
      | cons x rest =>
        rw [List.flatMap_cons, Segment.text, List.append_assoc, List.append_assoc]
        exact x.isGap.ends (hgap x List.mem_cons_self) _
    rw [List.flatMap_cons, Segment.text, List.append_assoc, List.append_assoc, lexFrom_gap s.isGap,
      lexFrom_word s.spelled hends hrest]
    rfl

theorem lex_word {t : Token} {word : List Char} (h : t.HasSpelling word) :
    lex word = .ok [⟨t, ⟨0, byteSize word⟩⟩] := by
  have hlex := lexFrom_word h (IsLastGap.gap .nil).ends (lexFrom.eq_1 (0 + byteSize word))
  rwa [List.append_nil, Nat.zero_add] at hlex

/-! ## What is cut is made of gaps and spellings -/

/-- No token is spelled by nothing. -/
theorem byteSize_pos_of_hasSpelling {t : Token} {word : List Char} (h : t.HasSpelling word) :
    0 < byteSize word := by
  obtain ⟨c, run, rfl, -⟩ := ends_of_hasSpelling h
  exact Nat.lt_of_lt_of_le c.utf8Size_pos (Nat.le_add_right _ _)

/-- A comment is closed by the line feed behind it. -/
theorem IsGap.of_comment {body gap : List Char} (h : IsGap gap) (hbody : '\n' ∉ body)
    (hgap : ∃ cs, gap = '\n' :: cs) : IsGap ('-' :: '-' :: body ++ gap) := by
  obtain ⟨cs, rfl⟩ := hgap
  exact .comment hbody h

/-- The text is made of segments and a last gap. -/
def IsCut (offset : Nat) (cs : List Char) (lexemes : List Lexeme) : Prop :=
  ∃ (segments : List Segment) (last : List Char), IsLastGap last ∧
    cs = segments.flatMap Segment.text ++ last ∧ lexemes = Segment.lexemes offset segments

theorem isCut_nil (offset : Nat) : IsCut offset [] [] := ⟨[], [], .gap .nil, rfl, rfl⟩

theorem IsCut.blank {offset : Nat} {c : Char} {cs : List Char} {lexemes : List Lexeme}
    (hc : isBlank c = true) (h : IsCut (offset + c.utf8Size) cs lexemes) :
    IsCut offset (c :: cs) lexemes := by
  obtain ⟨segments, last, hlast, rfl, rfl⟩ := h
  cases segments with
  | nil =>
    refine ⟨[], c :: last, ?_, rfl, rfl⟩
    cases hlast with
    | gap h => exact .gap (.blank hc h)
    | comment h hbody => exact .comment (.blank hc h) hbody
  | cons s rest =>
    refine ⟨⟨c :: s.gap, s.word, s.token, .blank hc s.isGap, s.spelled⟩ :: rest, last, hlast, rfl,
      ?_⟩
    simp only [Segment.lexemes, byteSize, Nat.add_assoc]

theorem IsCut.comment {offset : Nat} {body cs : List Char} {lexemes : List Lexeme}
    (hbody : '\n' ∉ body) (hcs : ∀ c ∈ cs.head?, c = '\n')
    (h : IsCut (offset + byteSize ('-' :: '-' :: body)) cs lexemes) :
    IsCut offset ('-' :: '-' :: body ++ cs) lexemes := by
  have hnewline {a b : List Char} (hab : cs = a ++ b) (ha : a ≠ []) : ∃ tail, a = '\n' :: tail := by
    obtain ⟨c, tail, rfl⟩ := List.exists_cons_of_ne_nil ha
    rw [hcs c (by rw [hab]; rfl)]
    exact ⟨tail, rfl⟩
  obtain ⟨segments, last, hlast, htext, rfl⟩ := h
  cases segments with
  | nil =>
    rw [List.flatMap_nil, List.nil_append] at htext
    refine ⟨[], '-' :: '-' :: body ++ last, ?_, by rw [htext]; rfl, rfl⟩
    by_cases hne : last = []
    · rw [hne, List.append_nil]
      exact .comment .nil hbody
    · cases hlast with
      | gap h =>
        exact .gap (h.of_comment hbody (hnewline (htext.trans (List.append_nil _).symm) hne))
      | @comment gap more h hmore =>
        by_cases hgap : gap = []
        · rw [hgap] at htext
          obtain ⟨tail, htail⟩ := hnewline (htext.trans (List.append_nil _).symm) nofun
          cases htail
        · rw [← List.append_assoc]
          exact .comment (h.of_comment hbody (hnewline htext hgap)) hmore
  | cons s rest =>
    rw [List.flatMap_cons, Segment.text, List.append_assoc, List.append_assoc] at htext
    -- The token does not start with the line feed that ends the comment.
    have hne : s.gap ≠ [] := by
      intro hnil
      obtain ⟨c, run, hword, hc, -⟩ := ends_of_hasSpelling s.spelled
      rw [hnil, hword] at htext
      rw [hcs c (by rw [htext]; rfl)] at hc
      exact absurd hc (by decide)
    refine ⟨⟨'-' :: '-' :: body ++ s.gap, s.word, s.token,
      s.isGap.of_comment hbody (hnewline htext hne), s.spelled⟩ :: rest, last, hlast, ?_, ?_⟩
    · rw [htext]
      simp [Segment.text]
    · simp only [Segment.lexemes, byteSize_append, Nat.add_assoc]

theorem IsCut.word {offset : Nat} {t : Token} {word cs : List Char} {lexemes : List Lexeme}
    (hword : t.HasSpelling word) (h : IsCut (offset + byteSize word) cs lexemes) :
    IsCut offset (word ++ cs) (⟨t, ⟨offset, offset + byteSize word⟩⟩ :: lexemes) := by
  obtain ⟨segments, last, hlast, rfl, rfl⟩ := h
  refine ⟨⟨[], word, t, .nil, hword⟩ :: segments, last, hlast, ?_, rfl⟩
  rw [List.flatMap_cons, List.append_assoc]
  rfl

/-- What the lexer gives are the tokens of segments that make up the text, with a last gap. -/
theorem isCut_of_lexFrom {offset : Nat} {cs : List Char} {lexemes : List Lexeme}
    (h : lexFrom offset cs = .ok lexemes) : IsCut offset cs lexemes := by
  fun_induction lexFrom offset cs generalizing lexemes with
  | case1 =>
    cases h
    exact isCut_nil _
  | case2 offset c cs more hfront ih =>
    have hcut := ih h
    rcases front_eq_gap hfront with ⟨hblank, rfl⟩ | ⟨body, tail, rfl, rfl, rfl, hbody, htail⟩
    · exact .blank hblank hcut
    · rw [List.take_succ_cons, List.drop_succ_cons, List.take_left, List.drop_left] at hcut
      exact .comment hbody htail hcut
  | case3 offset c cs t more hfront stop rest hrest =>
    rename_i ih
    cases h
    have hcut := IsCut.word (hasSpelling_of_front hfront) (ih hrest)
    rwa [List.cons_append, List.take_append_drop] at hcut
  | case4 => cases h
  | case5 => cases h

/-! ## The places of the tokens -/

/-- Where the last of some tokens ends, or where the text starts. -/
def lastStop (start : Nat) : List Lexeme → Nat
  | [] => start
  | l :: rest => lastStop l.place.stop rest

/-- Where the first of some tokens starts, or where the text ends. -/
def firstStart (stop : Nat) : List Lexeme → Nat
  | [] => stop
  | l :: _ => l.place.start

/-- The tokens are all that a text says: each is spelled at its place, whose text alone is that
token, and nothing but blanks and comments is around them. -/
structure IsSegmentation (text : List Char) (lexemes : List Lexeme) : Prop where
  nonempty : ∀ l ∈ lexemes, l.place.start < l.place.stop
  apart : lexemes.Pairwise fun l m => l.place.stop ≤ m.place.start
  slices : ∀ l ∈ lexemes, ∃ word, HasText text l.place word ∧ l.value.HasSpelling word ∧
    lex word = .ok [⟨l.value, ⟨0, byteSize word⟩⟩]
  gaps : ∀ before after, lexemes = before ++ after →
    ∃ gap, HasText text ⟨lastStop 0 before, firstStart (byteSize text) after⟩ gap ∧
      IsLastGap gap ∧ (after ≠ [] → IsGap gap)

theorem slices_of_segments (segments : List Segment) (before last : List Char) :
    ∀ l ∈ Segment.lexemes (byteSize before) segments, ∃ word,
      HasText (before ++ (segments.flatMap Segment.text ++ last)) l.place word ∧
        l.value.HasSpelling word := by
  induction segments generalizing before with
  | nil => nofun
  | cons s rest ih =>
    have htext : before ++ ((s :: rest).flatMap Segment.text ++ last) =
        before ++ s.gap ++ s.word ++ (rest.flatMap Segment.text ++ last) := by
      simp [Segment.text]
    rw [htext, Segment.lexemes, List.forall_mem_cons]
    refine ⟨⟨s.word, ⟨before ++ s.gap, _, rfl, ?_, ?_⟩, s.spelled⟩, ?_⟩
    · rw [byteSize_append]
    · rw [byteSize_append, byteSize_append]
    · have hrest := ih (before ++ s.gap ++ s.word)
      rwa [byteSize_append, byteSize_append] at hrest

theorem gaps_of_segments (segments : List Segment) (before : List Char) {last : List Char}
    (hlast : IsLastGap last) {front back : List Lexeme}
    (h : Segment.lexemes (byteSize before) segments = front ++ back) :
    ∃ gap, HasText (before ++ (segments.flatMap Segment.text ++ last))
        ⟨lastStop (byteSize before) front,
          firstStart (byteSize (before ++ (segments.flatMap Segment.text ++ last))) back⟩ gap ∧
      IsLastGap gap ∧ (back ≠ [] → IsGap gap) := by
  induction segments generalizing before front with
  | nil =>
    obtain ⟨rfl, rfl⟩ := List.append_eq_nil_iff.mp h.symm
    refine ⟨last, ⟨before, [], ?_, rfl, rfl⟩, hlast, fun hne => absurd rfl hne⟩
    rw [List.flatMap_nil, List.nil_append, List.append_nil]
  | cons s rest ih =>
    have htext : before ++ ((s :: rest).flatMap Segment.text ++ last) =
        before ++ s.gap ++ (s.word ++ (rest.flatMap Segment.text ++ last)) := by
      simp [Segment.text]
    -- The gap in question is the first one, or one of those behind the first word.
    cases front with
    | nil =>
      rw [List.nil_append] at h
      rw [← h]
      refine ⟨s.gap, ⟨before, _, htext, rfl, ?_⟩, .gap s.isGap, fun _ => s.isGap⟩
      rw [byteSize_append]
      rfl
    | cons l front =>
      obtain ⟨rfl, htail⟩ := List.cons.inj h
      have hsize : byteSize (before ++ s.gap ++ s.word) =
          byteSize before + byteSize s.gap + byteSize s.word := by
        rw [byteSize_append, byteSize_append]
      rw [← hsize] at htail
      have hgap := ih _ htail
      rw [hsize, List.append_assoc (before ++ s.gap), ← htext] at hgap
      exact hgap

theorem nonempty_of_segments (segments : List Segment) (offset : Nat) :
    ∀ l ∈ Segment.lexemes offset segments, l.place.start < l.place.stop := by
  induction segments generalizing offset with
  | nil => nofun
  | cons s rest ih =>
    rw [Segment.lexemes, List.forall_mem_cons]
    exact ⟨Nat.lt_add_of_pos_right (byteSize_pos_of_hasSpelling s.spelled), ih _⟩

/-- The facts about the places of tokens follow from the segments that the text is made of. -/
theorem isSegmentation_of_lex {text : List Char} {lexemes : List Lexeme}
    (h : lex text = .ok lexemes) : IsSegmentation text lexemes := by
  obtain ⟨segments, last, hlast, rfl, rfl⟩ := isCut_of_lexFrom h
  refine ⟨nonempty_of_segments segments 0, (lex_ordered h).apart, fun l hl => ?_, ?_⟩
  · obtain ⟨word, htext, hword⟩ := slices_of_segments segments [] last l hl
    exact ⟨word, htext, hword, lex_word hword⟩
  · intro before after heq
    exact gaps_of_segments segments [] hlast heq

theorem map_value_lexemes (offset : Nat) (segments : List Segment) :
    (Segment.lexemes offset segments).map (·.value) = segments.map (·.token) := by
  induction segments generalizing offset with
  | nil => rfl
  | cons s rest ih => rw [Segment.lexemes, List.map_cons, List.map_cons, ih]

/-- **Cutting a text into tokens is lossless, both ways.** The tokens of a text are a segmentation
of it; and spellings with blanks and comments between them are cut into the tokens they spell. -/
theorem lex_lossless :
    (∀ text lexemes, lex text = .ok lexemes → IsSegmentation text lexemes) ∧
    ∀ (segments : List Segment) (last : List Char), (∀ s ∈ segments.tail, s.gap ≠ []) →
      IsLastGap last → ∃ lexemes, lex (segments.flatMap Segment.text ++ last) = .ok lexemes ∧
        lexemes.map (·.value) = segments.map (·.token) :=
  ⟨fun _ _ => isSegmentation_of_lex, fun segments _ hgap hlast =>
    ⟨_, lexFrom_segments hgap hlast 0, map_value_lexemes 0 segments⟩⟩

/-- A comment with a quote in it stands in front of the name, a quoted comment behind the sign. -/
def noteFilter : List Segment := [
  ⟨[], "FILTER".toList, .keyword .filter, .nil, .keyword (by decide)⟩,
  ⟨" --it's\n".toList, "größe".toList, .ident (String.ofList "größe".toList),
    .blank (by decide) (.comment (show '\n' ∉ "it's".toList by decide) (.blank (by decide) .nil)),
    .ident (by decide +kernel) (List.all_eq_true.mp (by decide +kernel))
      (fun k => by cases k <;> decide)⟩,
  ⟨['\t'], ['<', '>'], .comparison .ne, .blank (by decide) .nil, .different⟩,
  ⟨[' '], "'--'".toList, .quoted (String.ofList "--".toList), .blank (by decide) .nil,
    .quoted (.inl rfl) (show '\'' ∉ "--".toList by decide)⟩,
  ⟨[' '], "-1.5".toList, .number (String.ofList "-1.5".toList), .blank (by decide) .nil,
    .negative (.places (show ['1'] ≠ [] by nofun) (List.all_eq_true.mp (by decide))
      (show ['5'] ≠ [] by nofun) (List.all_eq_true.mp (by decide)))⟩]

/-- The comment with an apostrophe opens no string, and the string with dashes no comment. -/
theorem noteFilter_lexed :
    ∃ lexemes, lex "FILTER --it's\ngröße\t<> '--' -1.5 --".toList = .ok lexemes ∧
      IsSegmentation "FILTER --it's\ngröße\t<> '--' -1.5 --".toList lexemes ∧
      lexemes.map (·.value) = [.keyword .filter, .ident "größe", .comparison .ne, .quoted "--",
        .number "-1.5"] := by
  have hlast : IsLastGap " --".toList :=
    .comment (.blank (show isBlank ' ' = true by decide) .nil) (show '\n' ∉ [] by nofun)
  obtain ⟨lexemes, hlex, hvalues⟩ := lex_lossless.2 noteFilter " --".toList (by decide) hlast
  exact ⟨lexemes, hlex, lex_lossless.1 _ _ hlex, hvalues⟩

end EventQuery.Source
