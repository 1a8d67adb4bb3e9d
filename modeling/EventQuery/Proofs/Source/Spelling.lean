import EventQuery.Proofs.Text.Runs
import EventQuery.Source.Token.Lexer

/-! The spellings of tokens. A spelling with a blank, a dash or nothing behind it is read as the
token it spells. What a text starts with, when it is cut, is a spelling that no name runs over
(`hasSpelling_of_front`) or a gap (`front_eq_gap`): all that is said of texts that are cut comes
from these two. -/

namespace EventQuery

open Text

/-- Digits, and behind a point more of them. -/
inductive Source.IsNumeral : List Char → Prop
  | whole {digits : List Char} : digits ≠ [] → (∀ d ∈ digits, d.isDigit = true) → IsNumeral digits
  | places {digits more : List Char} : digits ≠ [] → (∀ d ∈ digits, d.isDigit = true) →
    more ≠ [] → (∀ d ∈ more, d.isDigit = true) → IsNumeral (digits ++ '.' :: more)

/-- The ways to write a token. -/
inductive Token.HasSpelling : Token → List Char → Prop
  | keyword {k : Keyword} {word : List Char} : word.map Char.toLower = k.text.toList →
    HasSpelling (.keyword k) word
  | ident {c : Char} {run : List Char} : isNameStart c = true →
    (∀ d ∈ run, isNameContinue d = true) →
    (∀ k : Keyword, (c :: run).map Char.toLower ≠ k.text.toList) →
    HasSpelling (.ident (String.ofList (c :: run))) (c :: run)
  | quoted {quote : Char} {contents : List Char} : quote = '\'' ∨ quote = '"' → quote ∉ contents →
    HasSpelling (.quoted (String.ofList contents)) (quote :: contents ++ [quote])
  | number {numeral : List Char} : Source.IsNumeral numeral →
    HasSpelling (.number (String.ofList numeral)) numeral
  | negative {numeral : List Char} : Source.IsNumeral numeral →
    HasSpelling (.number (String.ofList ('-' :: numeral))) ('-' :: numeral)
  | comparison (c : Comparison) : HasSpelling (.comparison c) c.text.toList
  | different : HasSpelling (.comparison .ne) ['<', '>']
  | lparen : HasSpelling .lparen ['(']
  | rparen : HasSpelling .rparen [')']
  | comma : HasSpelling .comma [',']

namespace Source

/-! ## Classes of characters -/

theorem exists_range_of_inRanges {ranges : List (Nat × Nat)} {n : Nat}
    (h : inRanges ranges n = true) : ∃ r ∈ ranges, r.1 ≤ n ∧ n ≤ r.2 := by
  induction ranges with
  | nil => cases h
  | cons r ranges ih =>
    obtain ⟨lo, hi⟩ := r
    rw [inRanges, Bool.and_eq_true, Bool.or_eq_true, decide_eq_true_eq, decide_eq_true_eq] at h
    obtain ⟨hlo, hhi | hrest⟩ := h
    · exact ⟨_, List.mem_cons_self, hlo, hhi⟩
    · obtain ⟨r, hr, hn⟩ := ih hrest
      exact ⟨r, List.mem_cons_of_mem _ hr, hn⟩

/-- No character of a name is a blank. -/
theorem isNameContinue_of_isBlank {c : Char} (h : isBlank c = true) : isNameContinue c = false := by
  have hranges : ∀ r ∈ blankRanges, ∀ k ≤ r.2 - r.1,
      (inRanges startRanges (r.1 + k) || inRanges extraContinueRanges (r.1 + k)) = false := by
    decide +kernel
  obtain ⟨r, hr, hlo, hhi⟩ := exists_range_of_inRanges h
  have hc := hranges r hr (c.toNat - r.1) (by omega)
  rwa [Nat.add_sub_cancel' hlo] at hc

theorem isNameContinue_of_isNameStart {c : Char} (h : isNameStart c = true) :
    isNameContinue c = true := by
  rw [isNameStart, Bool.or_eq_true, beq_iff_eq] at h
  rcases h with rfl | h
  · decide +kernel
  · rw [isNameContinue, h, Bool.true_or]

theorem isBlank_of_isNameContinue {c : Char} (h : isNameContinue c = true) : isBlank c = false :=
  Bool.eq_false_iff.mpr fun hblank => by
    rw [isNameContinue_of_isBlank hblank] at h
    cases h

theorem isDigit_classes {c : Char} (h : c.isDigit = true) :
    isNameContinue c = true ∧ isNameStart c = false := by
  refine forall_ascii (p := fun c => c.isDigit = true → isNameContinue c = true ∧
    isNameStart c = false) ?_ (toNat_lt_of_isDigit h) h
  decide +kernel

/-- A word that is a keyword in small letters is made of letters. -/
theorem isNameStart_of_toLower {c : Char} (h : c.toLower.isLower = true) :
    isNameStart c = true := by
  by_cases hc : c.toNat < 128
  · refine forall_ascii (p := fun c => c.toLower.isLower = true → isNameStart c = true) ?_ hc h
    decide +kernel
  · have hlower : c.toLower = c := by
      refine dif_neg fun hupper => hc ?_
      have hz : c.toNat ≤ 90 := UInt32.le_iff_toNat_le.mp hupper.2
      omega
    rw [hlower] at h
    have hz : c.toNat ≤ 122 :=
      UInt32.le_iff_toNat_le.mp (of_decide_eq_true (Bool.and_eq_true_iff.mp h).2)
    omega

/-- A keyword in any case could be a name. -/
theorem exists_cons_of_keyword {k : Keyword} {word : List Char}
    (h : word.map Char.toLower = k.text.toList) : ∃ c run, word = c :: run ∧
      isNameStart c = true ∧ ∀ d ∈ run, isNameContinue d = true := by
  have hlower : ∀ d ∈ k.text.toList, d.isLower = true :=
    List.all_eq_true.mp (by cases k <;> decide)
  rw [← h, List.forall_mem_map] at hlower
  cases word with
  | nil => cases k <;> cases h
  | cons c run =>
    obtain ⟨hc, hrun⟩ := List.forall_mem_cons.mp hlower
    refine ⟨c, run, rfl, isNameStart_of_toLower hc, fun d hd => ?_⟩
    exact isNameContinue_of_isNameStart (isNameStart_of_toLower (hrun d hd))

/-! ## What ends a token -/

/-- A blank, a dash or the end of the text. -/
def Ends (rest : List Char) : Prop := ∀ d ∈ rest.head?, isBlank d = true ∨ d = '-'

theorem Ends.class {rest : List Char} (h : Ends rest) :
    ∀ d ∈ rest.head?, isNameContinue d = false := by
  intro d hd
  rcases h d hd with hblank | rfl
  · exact isNameContinue_of_isBlank hblank
  · decide +kernel

theorem Ends.ne {rest : List Char} (h : Ends rest) {c : Char} (hc : isBlank c = false)
    (hdash : c ≠ '-') : rest.head? ≠ some c := by
  intro he
  rcases h c he with hblank | rfl
  · exact absurd (hblank.symm.trans hc) nofun
  · exact hdash rfl

/-! ## Numerals -/

theorem IsNumeral.exists_cons {numeral : List Char} (h : IsNumeral numeral) :
    ∃ c rest, numeral = c :: rest ∧ c.isDigit = true := by
  cases h with
  | whole hne hdigits =>
    obtain ⟨c, rest, rfl⟩ := List.exists_cons_of_ne_nil hne
    exact ⟨c, rest, rfl, hdigits c List.mem_cons_self⟩
  | places hne hdigits _ _ =>
    obtain ⟨c, rest, rfl⟩ := List.exists_cons_of_ne_nil hne
    exact ⟨c, _, rfl, hdigits c List.mem_cons_self⟩

theorem IsNumeral.isDigit_or {numeral : List Char} (h : IsNumeral numeral) :
    ∀ d ∈ numeral, d.isDigit = true ∨ d = '.' := by
  cases h with
  | whole _ hdigits => exact fun d hd => .inl (hdigits d hd)
  | places _ hdigits _ hmore =>
    refine List.forall_mem_append.mpr ⟨fun d hd => .inl (hdigits d hd), ?_⟩
    exact List.forall_mem_cons.mpr ⟨.inr rfl, fun d hd => .inl (hmore d hd)⟩

/-- The point behind a numeral is no part of it unless digits follow. -/
theorem isNumeral_take {c : Char} (hc : c.isDigit = true) (cs : List Char) :
    IsNumeral ((c :: cs).take (numeralLength (c :: cs))) := by
  obtain ⟨digits, tail, hsplit, hrun, hdigits, -⟩ := exists_run Char.isDigit (c :: cs)
  have hne : digits ≠ [] := by
    rintro rfl
    rw [List.takeWhile_cons_of_pos hc] at hrun
    cases hrun
  rw [numeralLength, hrun, hsplit, List.drop_left]
  dsimp only
  split
  · next rest =>
    obtain ⟨more, tail, rfl, hrun, hmore, -⟩ := exists_run Char.isDigit rest
    rw [hrun]
    split
    · rw [List.take_left]
      exact .whole hne hdigits
    · next hlength =>
      rw [Nat.add_assoc, List.take_length_add_append, Nat.add_comm 1, List.take_succ_cons,
        List.take_left]
      exact .places hne hdigits (fun hnil => hlength (congrArg List.length hnil)) hmore
  · rw [List.take_left]
    exact .whole hne hdigits

theorem numeralLength_append {numeral rest : List Char} (h : IsNumeral numeral)
    (hrest : Ends rest) : numeralLength (numeral ++ rest) = numeral.length := by
  have hdigit : ∀ d ∈ rest.head?, d.isDigit = false := fun d hd =>
    Bool.eq_false_iff.mpr fun hdigit => by
      have hclass := (isDigit_classes hdigit).1
      rw [hrest.class d hd] at hclass
      cases hclass
  cases h with
  | whole _ hdigits =>
    rw [numeralLength, takeWhile_append_of_head? hdigits hdigit, List.drop_left]
    dsimp only
    split
    · exact absurd rfl (hrest.ne (c := '.') (by decide) (by decide))
    · rfl
  | @places digits more _ hdigits hne hmore =>
    have hpoint : ∀ d ∈ ('.' :: (more ++ rest)).head?, d.isDigit = false := by simp
    rw [List.append_assoc, List.cons_append, numeralLength,
      takeWhile_append_of_head? hdigits hpoint, List.drop_left]
    show (if _ then _ else _) = _
    rw [takeWhile_append_of_head? hmore hdigit, if_neg (by simpa using hne), List.length_append,
      List.length_cons]
    omega

/-! ## A spelling is read as its token -/

theorem ofWord?_of_map {k : Keyword} {word : List Char}
    (h : word.map Char.toLower = k.text.toList) : Keyword.ofWord? word = some k := by
  rw [Keyword.ofWord?, h]
  cases k <;> decide

theorem ofWord?_eq_none {word : List Char}
    (h : ∀ k : Keyword, word.map Char.toLower ≠ k.text.toList) : Keyword.ofWord? word = none :=
  List.find?_eq_none.mpr fun k _ => by simpa using (h k).symm

theorem front_word {c : Char} {run rest : List Char} (hc : isNameStart c = true)
    (hrun : ∀ d ∈ run, isNameContinue d = true) (hrest : Ends rest) :
    front c (run ++ rest) = .token (wordToken (c :: run)) run.length := by
  have hblank := isBlank_of_isNameContinue (isNameContinue_of_isNameStart hc)
  rw [front, if_neg (by simp [hblank]), if_pos hc, takeWhile_append_of_head? hrun hrest.class]

theorem front_keyword {k : Keyword} {word : List Char} (h : word.map Char.toLower = k.text.toList)
    {rest : List Char} (hrest : Ends rest) :
    ∃ c run, word = c :: run ∧ front c (run ++ rest) = .token (.keyword k) run.length := by
  obtain ⟨c, run, rfl, hc, hrun⟩ := exists_cons_of_keyword h
  refine ⟨c, run, rfl, ?_⟩
  rw [front_word hc hrun hrest, wordToken, ofWord?_of_map h]

theorem front_quoted {quote : Char} {contents : List Char} (hquote : quote = '\'' ∨ quote = '"')
    (hcontents : quote ∉ contents) (rest : List Char) :
    front quote (contents ++ [quote] ++ rest) =
      .token (.quoted (String.ofList contents)) (contents ++ [quote]).length := by
  have hfront : front quote = quotedFront quote := by
    rcases hquote with rfl | rfl <;> rfl
  have hrun : (contents ++ quote :: rest).takeWhile (· ≠ quote) = contents := by
    refine takeWhile_append_of_head? (fun c hc => ?_) (by simp)
    simpa using fun he : c = quote => hcontents (he ▸ hc)
  rw [hfront, List.append_assoc, List.singleton_append, quotedFront, hrun]
  simp

theorem front_digit {c : Char} {run rest : List Char} (hc : c.isDigit = true)
    (h : IsNumeral (c :: run)) (hrest : Ends rest) :
    front c (run ++ rest) = .token (.number (String.ofList (c :: run))) run.length := by
  obtain ⟨hcontinue, hstart⟩ := isDigit_classes hc
  rw [front, if_neg (by simp [isBlank_of_isNameContinue hcontinue]), if_neg (by simp [hstart]),
    if_pos hc, ← List.cons_append, numeralLength_append h hrest]
  dsimp only
  rw [List.take_left]
  rfl

theorem front_negative {numeral rest : List Char} (h : IsNumeral numeral) (hrest : Ends rest) :
    front '-' (numeral ++ rest) =
      .token (.number (String.ofList ('-' :: numeral))) numeral.length := by
  have hfront : front '-' = dashFront := rfl
  have hlength := numeralLength_append h hrest
  obtain ⟨c, run, rfl, hc⟩ := h.exists_cons
  rw [hfront, dashFront.eq_def, List.cons_append]
  split
  · next heq =>
    obtain ⟨rfl, -⟩ := List.cons.inj heq
    cases hc
  · next heq =>
    obtain ⟨rfl, -⟩ := List.cons.inj heq
    rw [if_pos hc, ← List.cons_append, hlength]
    dsimp only
    rw [List.take_left]
  · next heq => cases heq

theorem front_angle {rest : List Char} (hrest : Ends rest) :
    front '<' rest = .token (.comparison .lt) 0 ∧ front '>' rest = .token (.comparison .gt) 0 := by
  have hlt : front '<' = symbolFront '<' := rfl
  have hgt : front '>' = symbolFront '>' := rfl
  have heq := hrest.ne (c := '=') (by decide) (by decide)
  have hne := hrest.ne (c := '>') (by decide) (by decide)
  rw [hlt, hgt]
  constructor
  · unfold symbolFront
    split <;> simp_all
  · unfold symbolFront
    split <;> simp_all

/-- **A spelling is read as the token it spells** where nothing behind it can belong to it. -/
theorem front_of_hasSpelling {t : Token} {word rest : List Char} (h : t.HasSpelling word)
    (hrest : Ends rest) :
    ∃ c run, word = c :: run ∧ front c (run ++ rest) = .token t run.length := by
  cases h with
  | keyword h => exact front_keyword h hrest
  | @ident c run hc hrun hkeyword =>
    refine ⟨c, run, rfl, ?_⟩
    rw [front_word hc hrun hrest, wordToken, ofWord?_eq_none hkeyword]
  | quoted hquote hcontents => exact ⟨_, _, rfl, front_quoted hquote hcontents rest⟩
  | number h =>
    obtain ⟨c, run, rfl, hc⟩ := h.exists_cons
    exact ⟨c, run, rfl, front_digit hc h hrest⟩
  | negative h => exact ⟨_, _, rfl, front_negative h hrest⟩
  | comparison c =>
    cases c with
    | lt => exact ⟨_, _, rfl, (front_angle hrest).1⟩
    | gt => exact ⟨_, _, rfl, (front_angle hrest).2⟩
    | eq | ne | le | ge => exact ⟨_, _, rfl, rfl⟩
  | different | lparen | rparen | comma => exact ⟨_, _, rfl, rfl⟩

/-! ## What is read as a token is a spelling of it -/

theorem hasSpelling_wordToken {c : Char} {run : List Char} (hc : isNameStart c = true)
    (hrun : ∀ d ∈ run, isNameContinue d = true) :
    (wordToken (c :: run)).HasSpelling (c :: run) := by
  unfold wordToken
  split
  · next k hk =>
    have hspelled := List.find?_some hk
    exact .keyword (of_decide_eq_true hspelled).symm
  · next hnone =>
    refine .ident hc hrun fun k hk => ?_
    rw [ofWord?_of_map hk] at hnone
    cases hnone

theorem hasSpelling_quotedFront {quote : Char} (hquote : quote = '\'' ∨ quote = '"')
    {cs : List Char} {t : Token} {more : Nat} (h : quotedFront quote cs = .token t more) :
    t.HasSpelling (quote :: cs.take more) := by
  obtain ⟨contents, tail, rfl, hrun, hcontents, htail⟩ := exists_run (· ≠ quote) cs
  unfold quotedFront at h
  rw [hrun] at h
  dsimp only at h
  split at h
  · next hlt =>
    cases h
    obtain ⟨d, tail, rfl⟩ : ∃ d rest, tail = d :: rest := by
      refine List.exists_cons_of_ne_nil fun hnil => ?_
      rw [hnil, List.append_nil] at hlt
      exact Nat.lt_irrefl _ hlt
    obtain rfl : d = quote := by simpa using htail d rfl
    rw [List.take_length_add_append]
    exact .quoted hquote fun hd => by simpa using hcontents d hd
  · cases h

theorem hasSpelling_dashFront {cs : List Char} {t : Token} {more : Nat}
    (h : dashFront cs = .token t more) : t.HasSpelling ('-' :: cs.take more) := by
  unfold dashFront at h
  split at h
  · cases h
  · split at h
    · next hdigit =>
      cases h
      exact .negative (isNumeral_take hdigit _)
    · cases h
  · cases h

theorem hasSpelling_symbolFront {c : Char} {cs : List Char} {t : Token} {more : Nat}
    (h : symbolFront c cs = .token t more) : t.HasSpelling (c :: cs.take more) := by
  have htake {d : Char} (hd : cs.head? = some d) : cs.take 1 = [d] := by
    obtain ⟨cs, rfl⟩ := List.head?_eq_some_iff.mp hd
    rfl
  unfold symbolFront at h
  split at h
  case h_1 => cases h; next hd => exact htake hd ▸ .comparison .ne
  case h_3 => cases h; next hd => exact htake hd ▸ .different
  case h_4 => cases h; next hd => exact htake hd ▸ .comparison .le
  case h_6 => cases h; next hd => exact htake hd ▸ .comparison .ge
  case h_5 => cases h; exact .comparison .lt
  case h_7 => cases h; exact .comparison .gt
  case h_8 => cases h; exact .comparison .eq
  case h_9 => cases h; exact .lparen
  case h_10 => cases h; exact .rparen
  case h_11 => cases h; exact .comma
  case h_2 | h_12 => cases h

/-- What a text starts with as a token is a spelling of the token. -/
theorem hasSpelling_of_front {c : Char} {cs : List Char} {t : Token} {more : Nat}
    (h : front c cs = .token t more) : t.HasSpelling (c :: cs.take more) := by
  unfold front at h
  split at h
  · cases h
  split at h
  · next hstart =>
    obtain ⟨run, tail, rfl, hrun, hcontinue, -⟩ := exists_run isNameContinue cs
    rw [hrun] at h
    cases h
    rw [List.take_left]
    exact hasSpelling_wordToken hstart hcontinue
  split at h
  · next hdigit =>
    cases h
    have hnumeral := isNumeral_take hdigit cs
    obtain ⟨d, run, hrun, -⟩ := hnumeral.exists_cons
    obtain ⟨n, hn⟩ : ∃ n, numeralLength (c :: cs) = n + 1 := by
      refine Nat.exists_eq_add_one_of_ne_zero fun hzero => ?_
      rw [hzero] at hrun
      cases hrun
    rw [hn] at hnumeral ⊢
    exact .number hnumeral
  split at h
  · next hquote => exact hasSpelling_quotedFront (by simpa using hquote) h
  split at h
  · next hdash =>
    subst hdash
    exact hasSpelling_dashFront h
  · exact hasSpelling_symbolFront h

/-- A word goes on as long as a name does. -/
theorem isNameContinue_behind_word {c : Char} {cs : List Char} {t : Token} {more : Nat}
    (h : front c cs = .token t more) (hc : isNameStart c = true) :
    ∀ d ∈ (cs.drop more).head?, isNameContinue d = false := by
  have hblank := isBlank_of_isNameContinue (isNameContinue_of_isNameStart hc)
  obtain ⟨run, tail, rfl, hrun, -, htail⟩ := exists_run isNameContinue cs
  rw [front, if_neg (by simp [hblank]), if_pos hc, hrun] at h
  cases h
  rwa [List.drop_left]

/-! ## What is read as a gap -/

/-- What a text starts with, if it starts with a gap. -/
theorem front_eq_gap {c : Char} {cs : List Char} {more : Nat} (h : front c cs = .gap more) :
    isBlank c = true ∧ more = 0 ∨
      ∃ body tail, c = '-' ∧ cs = '-' :: (body ++ tail) ∧ more = body.length + 1 ∧ '\n' ∉ body ∧
        ∀ d ∈ tail.head?, d = '\n' := by
  unfold front at h
  split at h
  · next hblank =>
    cases h
    exact .inl ⟨hblank, rfl⟩
  split at h
  · cases h
  split at h
  · cases h
  split at h
  · unfold quotedFront at h
    dsimp only at h
    split at h <;> cases h
  split at h
  · next hdash =>
    unfold dashFront at h
    split at h
    · next cs =>
      obtain ⟨body, tail, rfl, hrun, hbody, htail⟩ := exists_run (· ≠ '\n') cs
      rw [hrun] at h
      cases h
      refine .inr ⟨body, tail, hdash, rfl, Nat.add_comm _ _, fun hmem => ?_, fun d hd => ?_⟩
      · simpa using hbody _ hmem
      · simpa using htail d hd
    · split at h <;> cases h
    · cases h
  · unfold symbolFront at h
    split at h <;> cases h

/-! ## The ends of a spelling -/

theorem ends_not_blank {word : List Char} (hne : word ≠ []) (h : ∀ d ∈ word, isBlank d = false) :
    ∃ c run, word = c :: run ∧ isBlank c = false ∧ ∀ d ∈ word.getLast?, isBlank d = false := by
  obtain ⟨c, run, rfl⟩ := List.exists_cons_of_ne_nil hne
  exact ⟨c, run, rfl, h c List.mem_cons_self, fun d hd => h d (List.mem_of_getLast? hd)⟩

/-- Blanks are only inside of quoted texts. -/
theorem ends_of_hasSpelling {t : Token} {word : List Char} (h : t.HasSpelling word) :
    ∃ c run, word = c :: run ∧ isBlank c = false ∧ ∀ d ∈ word.getLast?, isBlank d = false := by
  have hname {c : Char} {run : List Char} (hc : isNameStart c = true)
      (hrun : ∀ d ∈ run, isNameContinue d = true) : ∀ d ∈ c :: run, isBlank d = false :=
    List.forall_mem_cons.mpr ⟨isBlank_of_isNameContinue (isNameContinue_of_isNameStart hc),
      fun d hd => isBlank_of_isNameContinue (hrun d hd)⟩
  have hnumeral {numeral : List Char} (h : IsNumeral numeral) :
      ∀ d ∈ numeral, isBlank d = false := fun d hd => by
    rcases h.isDigit_or d hd with hd | rfl
    · exact isBlank_of_isNameContinue (isDigit_classes hd).1
    · decide
  cases h with
  | keyword h =>
    obtain ⟨c, run, rfl, hc, hrun⟩ := exists_cons_of_keyword h
    exact ends_not_blank nofun (hname hc hrun)
  | ident hc hrun _ => exact ends_not_blank nofun (hname hc hrun)
  | @quoted quote contents hquote _ =>
    have hblank : isBlank quote = false := by
      rcases hquote with rfl | rfl <;> decide
    refine ⟨quote, contents ++ [quote], rfl, hblank, fun d hd => ?_⟩
    rw [List.getLast?_concat] at hd
    cases hd
    exact hblank
  | number h =>
    obtain ⟨c, run, rfl, -⟩ := h.exists_cons
    exact ends_not_blank nofun (hnumeral h)
  | negative h =>
    exact ends_not_blank nofun (List.forall_mem_cons.mpr ⟨by decide, hnumeral h⟩)
  | comparison c =>
    cases c <;> exact ⟨_, _, rfl, by decide, fun d hd => by cases Option.some.inj hd; decide⟩
  | different | lparen | rparen | comma =>
    exact ⟨_, _, rfl, by decide, fun d hd => by cases Option.some.inj hd; decide⟩

end Source

end EventQuery
