import EventQuery.Proofs.Editor.Pieces
import EventQuery.Proofs.Source.Lexing

/-! The scan for the context of an offset sees the tokens of a text. It cuts words on its own, but
where names are made of ASCII characters the pieces of a text that ends in front of a name are those
of the tokens there (`Editor.exists_scanned_of_lex`), although the scan does not see what comes
behind. -/

namespace EventQuery.Editor

open Text Source

/-! ## What the scan makes of tokens -/

/-- The pieces of one token: a word may be in any case, numerals and comparisons are taken apart. -/
inductive TokenPieces : Token → List Piece → Prop
  | keyword {k : Keyword} {chars : List Char} : Keyword.ofWord? chars = some k →
    TokenPieces (.keyword k) [.word chars]
  | ident {chars : List Char} : Keyword.ofWord? chars = none →
    TokenPieces (.ident (String.ofList chars)) [.word chars]
  | quoted (contents : String) : TokenPieces (.quoted contents) [.other]
  | number (numeral : String) (n : Nat) :
    TokenPieces (.number numeral) (List.replicate (n + 1) .other)
  | comparison (c : Comparison) (n : Nat) :
    TokenPieces (.comparison c) (List.replicate (n + 1) .other)
  | lparen : TokenPieces .lparen [.opening]
  | rparen : TokenPieces .rparen [.closing]
  | comma : TokenPieces .comma [.comma]

/-- The text `w` is cut into these pieces in front of `tail`, however much of it is there. -/
structure CutAs (w tail : List Char) (ps : List Piece) : Prop where
  ascii : IsAscii tail
  scan_append : ∀ rest, rest <+: tail → scan (w ++ rest) = ps ++ scan rest

/-- No word runs over the end of `w`. -/
def Parted (w tail : List Char) : Prop :=
  (∀ c ∈ tail.head?, isNameContinue c = false) ∨ ∀ c ∈ w.getLast?, isWordChar c = false

/-- The text `w` in front of `tail` is a token. -/
structure TokenCut (t : Token) (w tail : List Char) : Prop where
  pieces : ∃ ps, TokenPieces t ps ∧ CutAs w tail ps
  parted : (∃ n, t = .number n) ∨ Parted w tail
  name : ∀ name, t = .ident name →
    (∃ c ∈ w.head?, isNameContinue c = true) ∧ ∀ c ∈ w, isWordChar c = true

theorem mem_head?_of_front {rest tail : List Char} (h : rest <+: tail) {c : Char}
    (hc : c ∈ rest.head?) : c ∈ tail.head? := by
  obtain ⟨more, rfl⟩ := h
  obtain ⟨rest, rfl⟩ := List.head?_eq_some_iff.mp hc
  rfl

theorem cutAs_blank {c : Char} {cs : List Char} (hc : isBlank c = true) (h : IsAscii (c :: cs)) :
    CutAs [c] cs [] ∧ Parted [c] cs := by
  have hplain : ∀ d ∈ [c], IsPlain d := by
    refine List.forall_mem_singleton.mpr (isPlain_of ?_ ?_ ?_ hc) <;> decide
  have happend : IsAscii ([c] ++ cs) := h
  obtain ⟨hascii, hcs⟩ := happend.of_append hplain
  refine ⟨⟨hcs, fun rest _ => scan_blank hc rest⟩, .inr ?_⟩
  rintro d ⟨⟩
  exact isWordChar_of_isBlank (hascii c (List.mem_singleton_self c)) hc

theorem cutAs_comment {body tail : List Char} (h : IsAscii ('-' :: '-' :: body ++ tail))
    (hbody : '\n' ∉ body) (htail : ∀ c ∈ tail.head?, c = '\n') :
    CutAs ('-' :: '-' :: body) tail [] ∧ Parted ('-' :: '-' :: body) tail := by
  refine ⟨⟨?_, fun rest hrest => ?_⟩, .inl fun c hc => ?_⟩
  · have hnot : '\n' ∉ '-' :: body := by simpa using hbody
    rw [IsAscii, List.cons_append, bare, bareFrom, if_pos ⟨rfl, rfl⟩, bareFrom_some hnot] at h
    cases tail with
    | nil => exact h
    | cons c tail =>
      rw [htail c rfl] at h ⊢
      exact List.forall_mem_cons.mpr ⟨by decide, h⟩
  · exact scan_comment hbody fun c hc => htail c (mem_head?_of_front hrest hc)
  · rw [htail c hc]
    decide +kernel

theorem tokenCut_word {t : Token} {c : Char} {run tail : List Char}
    (ht : TokenPieces t [.word (c :: run)]) (h : IsAscii (c :: run ++ tail))
    (hstart : isNameStart c = true) (hrun : ∀ d ∈ run, isNameContinue d = true)
    (htail : ∀ d ∈ tail.head?, isNameContinue d = false) : TokenCut t (c :: run) tail := by
  have hc : c.toNat < 128 := h.head c rfl
  obtain ⟨-, -, -, -, -, -, hcontinue⟩ := isNameStart_ascii hc hstart
  have hname : ∀ d ∈ c :: run, isNameContinue d = true :=
    List.forall_mem_cons.mpr ⟨hcontinue, hrun⟩
  obtain ⟨hword, hascii⟩ := h.of_append fun d hd => isPlain_of (by decide +kernel)
    (by decide +kernel) (by decide +kernel) (hname d hd)
  have hchars : ∀ d ∈ c :: run, isWordChar d = true := by
    intro d hd
    rw [← isNameContinue_eq (hword d hd)]
    exact hname d hd
  refine ⟨⟨_, ht, hascii, fun rest hrest => ?_⟩, .inr (.inl htail),
    fun _ _ => ⟨⟨c, rfl, hcontinue⟩, hchars⟩⟩
  refine scan_word hc hstart (List.forall_mem_cons.mp hchars).2 fun d hd => ?_
  have hd := mem_head?_of_front hrest hd
  rw [← isNameContinue_eq (hascii.head d hd)]
  exact htail d hd

theorem cutAs_quoted {q : Char} (hq : q = '\'' ∨ q = '"') {contents tail : List Char}
    (h : IsAscii (q :: contents ++ q :: tail)) (hcontents : q ∉ contents) :
    CutAs (q :: contents ++ [q]) tail [.other] ∧ Parted (q :: contents ++ [q]) tail := by
  refine ⟨⟨?_, fun rest _ => ?_⟩, .inr fun c hc => ?_⟩
  · rw [IsAscii, List.cons_append, bare, bareFrom, if_neg (by rcases hq with rfl | rfl <;> simp),
      if_pos hq, bareFrom_some hcontents, bareFrom, if_pos rfl] at h
    exact h
  · rw [List.append_assoc]
    exact scan_quoted hq hcontents rest
  · rw [List.getLast?_concat] at hc
    cases hc
    rcases hq with rfl | rfl <;> decide +kernel

theorem cutAs_strays {w tail : List Char} (h : IsAscii (w ++ tail))
    (hw : ∀ c ∈ w, isStray c = true) : CutAs w tail (List.replicate w.length .other) :=
  ⟨(h.of_append fun c hc => isPlain_of_isStray (hw c hc)).2, fun rest _ => scan_strays hw rest⟩

theorem parted_of_last {w tail : List Char} {c : Char} (hw : w.getLast? = some c)
    (hc : isWordChar c = false) : Parted w tail :=
  .inr fun d hd => by
    cases hw.symm.trans hd
    exact hc

/-- A comparison is taken apart into its characters. -/
theorem tokenCut_comparison {x : Comparison} {c : Char} {w tail : List Char}
    (h : IsAscii (c :: w ++ tail))
    (hw : (c :: w).all (fun d => isStray d && !isWordChar d) = true) :
    TokenCut (.comparison x) (c :: w) tail := by
  have hw : ∀ d ∈ c :: w, isStray d = true ∧ isWordChar d = false := by
    simpa only [List.all_eq_true, Bool.and_eq_true, Bool.not_eq_true'] using hw
  refine ⟨⟨_, .comparison x w.length, cutAs_strays h fun d hd => (hw d hd).1⟩, ?_, nofun⟩
  exact .inr (.inr fun d hd => (hw d (List.mem_of_getLast? hd)).2)

theorem tokenCut_mark {t : Token} {p : Piece} {c : Char} {tail : List Char}
    (ht : TokenPieces t [p]) (h : IsAscii ([c] ++ tail)) (hplain : IsPlain c)
    (hscan : ∀ rest, scan (c :: rest) = p :: scan rest) (hword : isWordChar c = false)
    (hname : ∀ name, t ≠ .ident name) : TokenCut t [c] tail := by
  obtain ⟨-, hascii⟩ := h.of_append (List.forall_mem_singleton.mpr hplain)
  exact ⟨⟨_, ht, hascii, fun rest _ => hscan rest⟩, .inr (parted_of_last rfl hword),
    fun name h => absurd h (hname name)⟩

/-- The characters of a numeral are taken one by one. -/
theorem cutAs_numeral {numeral tail : List Char} (hn : IsNumeral numeral)
    (h : IsAscii (numeral ++ tail)) :
    CutAs numeral tail (List.replicate numeral.length .other) :=
  cutAs_strays h fun d hd => isStray_of_numeral (hn.isDigit_or d hd)

/-- So is the sign in front of it, behind which no comment starts. -/
theorem cutAs_negative {numeral tail : List Char} (hn : IsNumeral numeral)
    (h : IsAscii ('-' :: numeral ++ tail)) :
    CutAs ('-' :: numeral) tail (List.replicate (numeral.length + 1) .other) := by
  obtain ⟨d, w, rfl, hdigit⟩ := hn.exists_cons
  have hne : d ≠ '-' := (isPlain_of_isStray (isStray_of_isDigit hdigit)).1
  have hascii : IsAscii (d :: w ++ tail) := by
    rw [IsAscii, List.cons_append, List.cons_append, bare, bareFrom, if_neg (by simp [hne]),
      if_neg (by decide)] at h
    exact (List.forall_mem_cons.mp h).2
  have hcut := cutAs_numeral hn hascii
  refine ⟨hcut.ascii, fun rest hrest => ?_⟩
  rw [List.cons_append, scan_dash (by simpa using hne), hcut.scan_append rest hrest]
  rfl

/-- A spelling that no name runs over is cut as the token it spells. -/
theorem tokenCut_of_hasSpelling {t : Token} {word tail : List Char} (h : t.HasSpelling word)
    (ha : IsAscii (word ++ tail))
    (hend : ∀ c ∈ word.head?, isNameStart c = true →
      ∀ d ∈ tail.head?, isNameContinue d = false) : TokenCut t word tail := by
  cases h with
  | keyword h =>
    obtain ⟨c, run, rfl, hc, hrun⟩ := exists_cons_of_keyword h
    exact tokenCut_word (.keyword (ofWord?_of_map h)) ha hc hrun (hend c rfl hc)
  | @ident c run hc hrun hkeyword =>
    exact tokenCut_word (.ident (ofWord?_eq_none hkeyword)) ha hc hrun (hend c rfl hc)
  | quoted hquote hcontents =>
    rw [List.append_assoc] at ha
    obtain ⟨hcut, hparted⟩ := cutAs_quoted hquote ha hcontents
    exact ⟨⟨_, .quoted _, hcut⟩, .inr hparted, nofun⟩
  | number hn =>
    have hcut := cutAs_numeral hn ha
    obtain ⟨c, run, rfl, -⟩ := hn.exists_cons
    exact ⟨⟨_, .number _ run.length, hcut⟩, .inl ⟨_, rfl⟩, nofun⟩
  | negative hn => exact ⟨⟨_, .number _ _, cutAs_negative hn ha⟩, .inl ⟨_, rfl⟩, nofun⟩
  | comparison c => cases c <;> exact tokenCut_comparison ha (by decide +kernel)
  | different => exact tokenCut_comparison ha (by decide +kernel)
  | lparen => exact tokenCut_mark .lparen ha (by decide) (fun _ => rfl) (by decide +kernel) nofun
  | rparen => exact tokenCut_mark .rparen ha (by decide) (fun _ => rfl) (by decide +kernel) nofun
  | comma => exact tokenCut_mark .comma ha (by decide) (fun _ => rfl) (by decide +kernel) nofun

/-- What a text starts with, if it starts with a token. -/
theorem tokenCut_front {c : Char} {cs : List Char} {t : Token} {more : Nat}
    (h : front c cs = .token t more) (ha : IsAscii (c :: cs)) :
    TokenCut t (c :: cs.take more) (cs.drop more) := by
  refine tokenCut_of_hasSpelling (hasSpelling_of_front h) ?_ fun d hd hstart => ?_
  · rwa [List.cons_append, List.take_append_drop]
  · cases hd
    exact isNameContinue_behind_word h hstart

theorem gapCut_front {c : Char} {cs : List Char} {more : Nat} (h : front c cs = .gap more)
    (ha : IsAscii (c :: cs)) :
    CutAs (c :: cs.take more) (cs.drop more) [] ∧ Parted (c :: cs.take more) (cs.drop more) := by
  rcases front_eq_gap h with ⟨hblank, rfl⟩ | ⟨body, tail, rfl, rfl, rfl, hbody, htail⟩
  · exact cutAs_blank hblank ha
  · rw [List.take_succ_cons, List.drop_succ_cons, List.take_left, List.drop_left]
    exact cutAs_comment ha hbody htail

/-- The pieces of tokens, one after another. -/
inductive Scanned : List Lexeme → List Piece → Prop
  | nil : Scanned [] []
  | cons {l : Lexeme} {ls : List Lexeme} {qs ps : List Piece} :
    TokenPieces l.value qs → Scanned ls ps → Scanned (l :: ls) (qs ++ ps)

theorem TokenPieces.ne_nil {t : Token} {ps : List Piece} (h : TokenPieces t ps) : ps ≠ [] := by
  cases h <;> simp

theorem Scanned.eq_nil {ls : List Lexeme} (h : Scanned ls []) : ls = [] := by
  cases ls with
  | nil => rfl
  | cons l ls =>
    generalize hps : ([] : List Piece) = ps at h
    cases h with
    | cons hl _ => exact absurd (List.append_eq_nil_iff.mp hps.symm).1 hl.ne_nil

/-- A numeral stands at the end. -/
def EndsInNumber (ls : List Lexeme) : Prop := ∃ n p, ls.getLast? = some ⟨.number n, p⟩

theorem EndsInNumber.cons {l : Lexeme} {ls : List Lexeme} (h : EndsInNumber ls) :
    EndsInNumber (l :: ls) := by
  obtain ⟨n, p, h⟩ := h
  exact ⟨n, p, by rw [List.getLast?_cons, h, Option.getD_some]⟩

/-- A numeral at the end is behind any token that is none. -/
theorem EndsInNumber.of_append {ls ms : List Lexeme} {l : Lexeme} (h : EndsInNumber (ls ++ l :: ms))
    (hl : ∀ n, l.value ≠ .number n) : EndsInNumber ms := by
  obtain ⟨n, p, h⟩ := h
  rw [List.getLast?_append, List.getLast?_cons, Option.some_or, Option.some.injEq] at h
  cases hms : ms.getLast? with
  | none =>
    rw [hms, Option.getD_none] at h
    exact absurd (congrArg Located.value h) (hl n)
  | some m =>
    rw [hms, Option.getD_some] at h
    exact ⟨n, p, by rw [hms, h]⟩

/-- A name stands behind the text `pre` and in front of `post`, where the scan of `pre` has seen the
tokens in front of it, and no word runs into it. -/
structure NameAt (offset : Nat) (cs : List Char) (before : List Lexeme) (name : List Char)
    (place : ByteRange) (pre post : List Char) : Prop where
  text : cs = pre ++ name ++ post
  start : place.start = offset + byteSize pre
  stop : place.stop = offset + byteSize (pre ++ name)
  first : ∃ c ∈ name.head?, isNameContinue c = true
  word : ∀ c ∈ name, isWordChar c = true
  scanned : Scanned before (scan pre)
  parted : ¬EndsInNumber before → ∀ c ∈ pre.getLast?, isWordChar c = false

/-- More text in front. -/
theorem NameAt.append {offset : Nat} {w tail name pre post : List Char} {qs : List Piece}
    {before before' : List Lexeme} {place : ByteRange} (hcut : CutAs w tail qs)
    (h : NameAt (offset + byteSize w) tail before name place pre post)
    (hscanned : Scanned before' (qs ++ scan pre))
    (hparted : ¬EndsInNumber before' → ¬EndsInNumber before ∧ (pre = [] → Parted w tail)) :
    NameAt offset (w ++ tail) before' name place (w ++ pre) post where
  text := by rw [h.text]; simp
  start := by rw [h.start, byteSize_append, Nat.add_assoc]
  stop := by rw [h.stop, List.append_assoc, byteSize_append w, Nat.add_assoc]
  first := h.first
  word := h.word
  scanned := by
    rw [hcut.scan_append pre ⟨name ++ post, by rw [h.text, List.append_assoc]⟩]
    exact hscanned
  parted := by
    intro hnumber c hc
    obtain ⟨hbefore, hw⟩ := hparted hnumber
    cases pre with
    | cons d pre =>
      rw [List.getLast?_append, List.getLast?_cons, Option.some_or, ← List.getLast?_cons] at hc
      exact h.parted hbefore c hc
    | nil =>
      rw [List.append_nil] at hc
      rcases hw rfl with htail | hlast
      · obtain ⟨d, hname, hd⟩ := h.first
        have hhead : d ∈ tail.head? := by
          rw [h.text, List.nil_append, List.head?_append, hname]
          rfl
        exact absurd hd (by rw [htail d hhead]; decide)
      · exact hlast c hc

theorem exists_nameAt {offset : Nat} {cs : List Char} {before after : List Lexeme} {name : String}
    {place : ByteRange} (h : lexFrom offset cs = .ok (before ++ ⟨.ident name, place⟩ :: after))
    (ha : IsAscii cs) : ∃ pre post, NameAt offset cs before name.toList place pre post := by
  generalize hl : before ++ ⟨.ident name, place⟩ :: after = lexemes at h
  fun_induction lexFrom offset cs generalizing lexemes before with
  | case1 =>
    cases h
    simp at hl
  | case2 offset c cs more hfront ih =>
    obtain ⟨hcut, hparted⟩ := gapCut_front hfront ha
    obtain ⟨pre, post, hname⟩ := ih hcut.ascii _ hl h
    have htext : c :: cs.take more ++ cs.drop more = c :: cs := by
      rw [List.cons_append, List.take_append_drop]
    refine ⟨c :: cs.take more ++ pre, post, htext ▸ ?_⟩
    exact hname.append hcut hname.scanned fun hnumber => ⟨hnumber, fun _ => hparted⟩
  | case3 offset c cs t more hfront stop rest hrest =>
    rename_i ih
    cases h
    have htoken := tokenCut_front hfront ha
    obtain ⟨qs, hqs, hcut⟩ := htoken.pieces
    have htext : c :: cs.take more ++ cs.drop more = c :: cs := by
      rw [List.cons_append, List.take_append_drop]
    -- The name is the token at the front, or stands behind it.
    cases before with
    | nil =>
      obtain ⟨hl, rfl⟩ := List.cons.inj hl
      cases hl
      obtain ⟨hfirst, hword⟩ := htoken.name name rfl
      refine ⟨[], cs.drop more, ?_⟩
      rw [← (isSpelled_of_hasSpelling (hasSpelling_of_front hfront)).ident name rfl]
      refine ⟨htext.symm, rfl, rfl, hfirst, hword, .nil, fun _ d hd => ?_⟩
      exact absurd hd (Option.not_mem_none d)
    | cons l before =>
      obtain ⟨rfl, hmore⟩ := List.cons.inj hl
      obtain ⟨pre, post, hname⟩ := ih hcut.ascii _ hmore hrest
      refine ⟨c :: cs.take more ++ pre, post, htext ▸ ?_⟩
      refine hname.append hcut (.cons hqs hname.scanned) fun hnumber => ?_
      refine ⟨fun hbefore => hnumber hbefore.cons, ?_⟩
      rintro rfl
      obtain rfl := hname.scanned.eq_nil
      refine htoken.parted.resolve_left ?_
      rintro ⟨n, rfl⟩
      exact hnumber ⟨n, _, rfl⟩
  | case4 => cases h
  | case5 => cases h

/-! ## Offsets in a name -/

theorem cut_append (pre rest : List Char) (offset : Nat) :
    (cut (byteSize pre + offset) (pre ++ rest)).1 = pre ++ (cut offset rest).1 := by
  induction pre with
  | nil => rw [byteSize, Nat.zero_add, List.nil_append, List.nil_append]
  | cons c pre ih =>
    have hsub : c.utf8Size + byteSize pre + offset - c.utf8Size = byteSize pre + offset := by omega
    rw [List.cons_append, cut, byteSize, if_pos (by omega), hsub]
    exact congrArg (c :: ·) ih

theorem cut_within {name : List Char} {offset : Nat} (h : offset ≤ byteSize name)
    (rest : List Char) : (cut offset (name ++ rest)).1 <+: name := by
  induction name generalizing offset with
  | nil =>
    rw [byteSize] at h
    cases rest with
    | nil => exact List.prefix_refl []
    | cons c rest =>
      have hpos := c.utf8Size_pos
      have hcut : (cut offset (c :: rest)).1 = [] := by rw [cut, if_neg (by omega)]
      exact List.prefix_nil.mpr hcut
  | cons c name ih =>
    rw [List.cons_append, cut]
    split
    · refine (List.prefix_cons_inj c).mpr (ih ?_)
      rw [byteSize] at h
      omega
    · exact List.nil_prefix

section
variable {pre word : List Char} (hword : ∀ c ∈ word, isWordChar c = true)
  (hpre : ∀ c ∈ pre.getLast?, isWordChar c = false)
include hword hpre

theorem wordEnd_append : wordEnd (pre ++ word) = word := by
  rw [wordEnd, List.reverse_append, takeWhile_append_of_head?, List.reverse_reverse]
  · exact fun c hc => hword c (List.mem_reverse.mp hc)
  · rwa [List.head?_reverse]

theorem beforeWordEnd_append : beforeWordEnd (pre ++ word) = pre := by
  rw [beforeWordEnd, wordEnd_append hword hpre, List.length_append, Nat.add_sub_cancel,
    List.take_left]

end

/-- **The scan sees the tokens.** At every offset from the start to the end of a name, the context
is that of the tokens in front of the name, and the fragment is a part of the name. -/
theorem exists_scanned_of_lex {text : List Char} {before after : List Lexeme} {name : String}
    {place : ByteRange} (h : lex text = .ok (before ++ ⟨.ident name, place⟩ :: after))
    (ha : IsAscii text) (hnumber : ¬EndsInNumber before) :
    ∃ ps, Scanned before ps ∧ ∀ offset, place.start ≤ offset → offset ≤ place.stop →
      contextAt text offset = contextAfter ps ∧
        (fragmentAt text offset).chars <+: name.toList := by
  obtain ⟨pre, post, hname⟩ := exists_nameAt h ha
  refine ⟨scan pre, hname.scanned, fun offset hstart hstop => ?_⟩
  rw [hname.start] at hstart
  rw [hname.stop, byteSize_append] at hstop
  obtain ⟨k, rfl⟩ := Nat.exists_eq_add_of_le hstart
  have hcut : (cut k (name.toList ++ post)).1 <+: name.toList := cut_within (by omega) post
  have hword : ∀ c ∈ (cut k (name.toList ++ post)).1, isWordChar c = true :=
    fun c hc => hname.word c (hcut.subset hc)
  have hbefore : (cut (0 + byteSize pre + k) text).1 = pre ++ (cut k (name.toList ++ post)).1 := by
    rw [hname.text, Nat.zero_add, List.append_assoc, cut_append]
  constructor
  · rw [contextAt, hbefore, beforeWordEnd_append hword (hname.parted hnumber)]
  · simpa only [fragmentAt, hbefore, wordEnd_append hword (hname.parted hnumber)] using hcut

end EventQuery.Editor
