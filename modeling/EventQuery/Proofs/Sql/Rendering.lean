import EventQuery.Proofs.Sql.Numerals
import EventQuery.Sql.Query
import Mathlib.Data.List.Chain

/-! The text of tokens reads back to them, on several lines and on one. A token that could go on,
such as a word or a name in quotes, is always followed by one that ends it. Line breaks that are
left out stand beside parentheses, which end any token. -/

namespace EventQuery.Sql

open Reader

/-! ## What a token reads as -/

namespace Token

/-- The tokens that a reader finds in the text of a token: the words of a keyword, the parts of a
name with dots between them, and nothing for what only lays out the text. -/
def lexemes : Token → List Lexeme
  | .keyword k => (Text.split ' ' k.text).map .word
  | .comparison c => [.symbol (comparisonText c)]
  | .comma => [.symbol ","]
  | .dot => [.symbol "."]
  | .star => [.symbol "*"]
  | .lparen => [.symbol "("]
  | .rparen => [.symbol ")"]
  | .space | .newline | .indent _ => []
  | .ident name => [.name name]
  | .qualified parts => (parts.map .name).intersperse (.symbol ".")
  | .literal (.text s) => [.text s]
  | .literal (.integer n) => [.number (toString n)]
  | .literal (.real x) => [.number (NumberLayout.literal.write x)]
  | .function name => [.word (Text.upper name)]

/-- The name of a function is a word, a number is finite, and a name has a part. -/
def IsReadable : Token → Prop
  | .function name => IsWord (Text.upper name).toList
  | .literal l => l.isFinite = true
  | .qualified parts => parts ≠ []
  | _ => True

/-- Nothing that follows can make the token longer. -/
def isClosed : Token → Bool
  | .comma | .dot | .star | .lparen | .rparen | .space | .newline | .indent _ => true
  | _ => false

/-- Any token ends in front of this one. -/
def isBreak : Token → Bool
  | .space | .newline | .comma | .rparen => true
  | _ => false

/-- The second token may directly follow the first. -/
def canPrecede (t u : Token) : Bool :=
  t.isClosed || u.isBreak || match t, u with
    | .ident _, .dot => true
    | .function _, .lparen => true
    | _, _ => false

/-- The characters that come behind a token which is not closed. -/
def enders : Token → List Char
  | .ident _ => [' ', '\n', ',', ')', '.']
  | .function _ => [' ', '\n', ',', ')', '(']
  | _ => [' ', '\n', ',', ')']

end Token

/-! ## One token -/

/-- A character that is no quote, no line break and no parenthesis. -/
def isBare (c : Char) : Bool := c ∉ ['"', '\'', '\n', '(']

theorem isBare_of_class {p : Char → Bool} (hp : ['"', '\'', '\n', '('].any p = false)
    {c : Char} (h : p c = true) : isBare c = true := by
  rw [isBare, decide_eq_true_iff]
  intro hmem
  exact List.any_eq_false.mp hp c hmem h

theorem isBare_of_isWord {cs : List Char} (h : IsWord cs) : ∀ c ∈ cs, isBare c = true := by
  cases cs with
  | nil => cases h
  | cons c cs =>
    refine List.forall_mem_cons.mpr ⟨?_, fun d hd => ?_⟩
    · exact isBare_of_class (p := isWordStart) (by decide) h.1
    · exact isBare_of_class (p := isWordChar) (by decide) (h.2 d hd)

theorem isBare_of_isNumeral {n : List Char} (h : IsNumeral n) : ∀ c ∈ n, isBare c = true := by
  have hdigits : ∀ {ds : List Char}, IsDigits ds → ∀ c ∈ ds, isBare c = true :=
    fun hds c hc => isBare_of_class (p := Char.isDigit) (by decide) (hds.2 c hc)
  have hsign : ∀ {s : List Char}, IsSign s → ∀ c ∈ s, isBare c = true := by
    rintro s (rfl | rfl | rfl) <;> exact List.all_eq_true.mp rfl
  obtain ⟨hs, hw, hf, he⟩ := h
  simp only [List.forall_mem_append]
  refine ⟨⟨⟨hsign hs, hdigits hw⟩, ?_⟩, ?_⟩
  · obtain rfl | ⟨ds, hds, rfl⟩ := hf
    · nofun
    · exact List.forall_mem_cons.mpr ⟨by decide, hdigits hds⟩
  · obtain rfl | ⟨s, ds, hs, hds, rfl⟩ := he
    · nofun
    · rw [List.cons_append, List.forall_mem_cons, List.forall_mem_append]
      exact ⟨by decide, hsign hs, hdigits hds⟩

theorem ne_nil_of_isNumeral {n : List Char} (h : IsNumeral n) : n ≠ [] := by
  obtain ⟨-, hw, -, -⟩ := h
  simp [hw.1]

/-- The characters of a token outside of its quotes. -/
def Token.outside (layout : Layout) : Token → List Char
  | .ident _ => []
  | .qualified parts => List.replicate (parts.length - 1) '.'
  | .literal (.text _) => []
  | t => t.chars layout

theorem isBare_of_mem_outside {t : Token} (hr : t.IsReadable) (ho : t.isClosed = false)
    {layout : Layout} : ∀ c ∈ t.outside layout, isBare c = true := by
  cases t with
  | comma | dot | star | lparen | rparen | space | newline | indent => cases ho
  | keyword k =>
    have hbare : k.text.toList.all isBare = true := by cases k <;> decide
    exact List.all_eq_true.mp hbare
  | comparison c =>
    have hbare : (comparisonText c).toList.all isBare = true := by cases c <;> decide
    exact List.all_eq_true.mp hbare
  | ident name => nofun
  | qualified parts =>
    intro c hc
    rw [List.eq_of_mem_replicate hc]
    decide
  | literal l =>
    cases l with
    | text s => nofun
    | integer n => exact isBare_of_isNumeral (isNumeral_toString n)
    | real x => exact isBare_of_isNumeral (NumberLayout.literal.isNumeral_write hr)
  | function name => exact isBare_of_isWord hr

/-- Words with blanks between them. -/
theorem lexemes?_words {words : List String} (hne : words ≠ [])
    (h : ∀ w ∈ words, IsWord w.toList) {rest : List Char}
    (hrest : ∀ c ∈ rest.head?, isWordChar c = false) :
    lexemes? ((Text.join " " words).toList ++ rest) =
      (lexemes? rest).map (words.map .word ++ ·) := by
  induction words with
  | nil => exact absurd rfl hne
  | cons w words ih =>
    obtain ⟨hw, hwords⟩ := List.forall_mem_cons.mp h
    cases words with
    | nil => simpa [Text.join] using lexemes?_word hw hrest
    | cons v words =>
      have hblank : ∀ c ∈ (' ' :: ((Text.join " " (v :: words)).toList ++ rest)).head?,
          isWordChar c = false := by
        rintro c ⟨rfl⟩
        decide
      have hread := lexemes?_word hw hblank
      rw [lexemes?_of_isWhitespace rfl, ih (List.cons_ne_nil _ _) hwords] at hread
      simpa [Text.join, Function.comp_def] using hread

/-- The parts of a name with dots between them. -/
theorem lexemes?_qualified {parts : List String} (hne : parts ≠ []) {rest : List Char}
    (hrest : rest.head? ≠ some '"') :
    lexemes? (qualifiedChars parts ++ rest) =
      (lexemes? rest).map ((parts.map .name).intersperse (.symbol ".") ++ ·) := by
  induction parts with
  | nil => exact absurd rfl hne
  | cons part parts ih =>
    cases parts with
    | nil => simpa [qualifiedChars] using lexemes?_name hrest part
    | cons next parts =>
      have hdot : ('.' :: (qualifiedChars (next :: parts) ++ rest)).head? ≠ some '"' := by simp
      have hread := lexemes?_name hdot part
      rw [lexemes?_symbol (by decide), ih (List.cons_ne_nil _ _)] at hread
      simpa [qualifiedChars, Function.comp_def] using hread

theorem exists_words (k : Keyword) : Text.join " " (Text.split ' ' k.text) = k.text ∧
    Text.split ' ' k.text ≠ [] ∧ ∀ w ∈ Text.split ' ' k.text, IsWord w.toList := by
  cases k <;> decide

theorem lexemes?_replicate_space (n : Nat) (rest : List Char) :
    lexemes? (List.replicate n ' ' ++ rest) = lexemes? rest := by
  induction n with
  | zero => rfl
  | succ n ih => rw [List.replicate_succ, List.cons_append, lexemes?_of_isWhitespace rfl, ih]

theorem lexemes?_literal {l : Literal} (h : l.isFinite = true) {rest : List Char}
    (hrest : ∀ c ∈ rest.head?, c ∈ [' ', '\n', ',', ')']) :
    lexemes? (literalChars l ++ rest) = (lexemes? rest).map ((Token.literal l).lexemes ++ ·) := by
  have hnumeral : EndsNumeral rest := by
    intro c hc
    have hmem := hrest c hc
    simp only [List.mem_cons, List.not_mem_nil, or_false] at hmem
    obtain rfl | rfl | rfl | rfl := hmem <;> decide
  cases l with
  | text s =>
    exact lexemes?_text (fun hc => absurd (hrest _ hc) (by decide)) s
  | integer n =>
    simpa [literalChars, Token.lexemes] using lexemes?_numeral (isNumeral_toString n) hnumeral
  | real x =>
    simpa [literalChars, Token.lexemes] using
      lexemes?_numeral (NumberLayout.literal.isNumeral_write h) hnumeral

theorem isWordChar_of_mem_enders {c : Char} (h : c ∈ [' ', '\n', ',', ')', '(']) :
    isWordChar c = false := by
  simp only [List.mem_cons, List.not_mem_nil, or_false] at h
  obtain rfl | rfl | rfl | rfl | rfl := h <;> decide

/-- The text of a token reads as the token where it is closed or ends. -/
theorem lexemes?_chars {t : Token} (hr : t.IsReadable) {layout : Layout} {rest : List Char}
    (he : t.isClosed = true ∨ ∀ c ∈ rest.head?, c ∈ t.enders) :
    lexemes? (t.chars layout ++ rest) = (lexemes? rest).map (t.lexemes ++ ·) := by
  cases t with
  | comma | dot | star | lparen | rparen => exact lexemes?_symbol (by decide) rest
  | space => simpa [Token.chars, Token.lexemes] using lexemes?_of_isWhitespace (c := ' ') rfl rest
  | newline =>
    cases layout with
    | pretty =>
      simpa [Token.chars, Token.lexemes] using lexemes?_of_isWhitespace (c := '\n') rfl rest
    | compact =>
      simpa [Token.chars, Token.lexemes] using lexemes?_of_isWhitespace (c := ' ') rfl rest
  | indent depth =>
    cases layout with
    | pretty => simpa [Token.chars, Token.lexemes] using lexemes?_replicate_space (2 * depth) rest
    | compact => simp [Token.chars, Token.lexemes]
  | keyword k =>
    have hrest : ∀ c ∈ rest.head?, isWordChar c = false := fun c hc =>
      isWordChar_of_mem_enders
        (List.mem_append_left ['('] (he.resolve_left nofun c hc))
    obtain ⟨htext, hne, hwords⟩ := exists_words k
    rw [Token.chars, Token.lexemes, ← lexemes?_words hne hwords hrest, htext]
  | comparison c =>
    refine lexemes?_comparison (fun d hd => ?_) c
    have hmem := he.resolve_left nofun d hd
    simp only [Token.enders, List.mem_cons, List.not_mem_nil, or_false] at hmem
    obtain rfl | rfl | rfl | rfl := hmem <;> decide
  | ident name =>
    refine lexemes?_name (fun hc => ?_) name
    exact absurd (he.resolve_left nofun _ hc) (by simp [Token.enders])
  | qualified parts =>
    refine lexemes?_qualified hr (fun hc => ?_)
    exact absurd (he.resolve_left nofun _ hc) (by simp [Token.enders])
  | literal l => exact lexemes?_literal hr (he.resolve_left nofun)
  | function name =>
    have hrest : ∀ c ∈ rest.head?, isWordChar c = false := fun c hc =>
      isWordChar_of_mem_enders (he.resolve_left nofun c hc)
    simpa [Token.chars, Token.lexemes] using lexemes?_word hr hrest

/-! ## All tokens -/

/-- Each token may directly follow the one before it. -/
abbrev Separated (ts : List Token) : Prop := ts.IsChain (Token.canPrecede · ·)

theorem getLast?_enclose (quote : Char) (s : List Char) :
    (enclose quote s).getLast? = some quote := by
  rw [enclose, List.getLast?_concat]

theorem getLast?_qualifiedChars {parts : List String} (h : parts ≠ []) :
    (qualifiedChars parts).getLast? = some '"' := by
  induction parts with
  | nil => exact absurd rfl h
  | cons part parts ih =>
    cases parts with
    | nil => exact getLast?_enclose _ _
    | cons next parts =>
      rw [qualifiedChars, List.getLast?_append, List.getLast?_cons, ih (List.cons_ne_nil _ _)]
      · rfl
      · exact List.cons_ne_nil _ _

theorem chars_ne_nil {t : Token} (hr : t.IsReadable) (ho : t.isClosed = false) (layout : Layout) :
    t.chars layout ≠ [] := by
  cases t with
  | comma | dot | star | lparen | rparen | space | newline | indent => cases ho
  | keyword k => cases k <;> exact List.cons_ne_nil _ _
  | comparison c => cases c <;> exact List.cons_ne_nil _ _
  | ident name => exact List.cons_ne_nil _ _
  | qualified parts =>
    intro hnil
    have hlast := getLast?_qualifiedChars hr
    rw [show qualifiedChars parts = [] from hnil] at hlast
    cases hlast
  | literal l =>
    cases l with
    | text s => exact List.cons_ne_nil _ _
    | integer n => exact ne_nil_of_isNumeral (isNumeral_toString n)
    | real x => exact ne_nil_of_isNumeral (NumberLayout.literal.isNumeral_write hr)
  | function name =>
    intro hnil
    rw [Token.IsReadable, show (Text.upper name).toList = [] from hnil] at hr
    exact hr

/-- A token that is not closed does not end in a parenthesis. -/
theorem exists_getLast?_chars {t : Token} (hr : t.IsReadable) (ho : t.isClosed = false)
    (layout : Layout) : ∃ c, (t.chars layout).getLast? = some c ∧ c ≠ '(' := by
  have hbare (h : t.outside layout = t.chars layout) :
      ∃ c, (t.chars layout).getLast? = some c ∧ c ≠ '(' := by
    have hne := chars_ne_nil hr ho layout
    refine ⟨_, List.getLast?_eq_getLast_of_ne_nil hne, fun hc => ?_⟩
    have hbare : isBare ((t.chars layout).getLast hne) = true :=
      isBare_of_mem_outside hr ho _ (by rw [h]; exact List.getLast_mem hne)
    rw [hc] at hbare
    exact absurd hbare (by decide)
  cases t with
  | comma | dot | star | lparen | rparen | space | newline | indent => cases ho
  | ident name => exact ⟨_, getLast?_enclose _ _, by decide⟩
  | qualified parts => exact ⟨_, getLast?_qualifiedChars hr, by decide⟩
  | literal l =>
    cases l with
    | text s => exact ⟨_, getLast?_enclose _ _, by decide⟩
    | integer | real => exact hbare rfl
  | keyword | comparison | function => exact hbare rfl

theorem renderAfter_of_ne {layout : Layout} {last : Option Char} {t : Token} (h : t ≠ .newline)
    (ts : List Token) : renderAfter layout last (t :: ts) =
      t.chars layout ++ renderAfter layout ((t.chars layout).getLast?.or last) ts := by
  rw [renderAfter, if_neg (by simp [h])]

/-- A token in front of which any other ends is written with a character that ends it, also where
it is a line break that is left out. -/
theorem exists_head?_renderAfter {u : Token} (hu : u.isBreak = true) (layout : Layout)
    {last : Option Char} (hlast : last ≠ some '(') (ts : List Token) :
    ∃ c ∈ [' ', '\n', ',', ')'], (renderAfter layout last (u :: ts)).head? = some c := by
  cases u with
  | space => exact ⟨' ', by decide, by rw [renderAfter_of_ne (by decide)]; rfl⟩
  | comma => exact ⟨',', by decide, by rw [renderAfter_of_ne (by decide)]; rfl⟩
  | rparen => exact ⟨')', by decide, by rw [renderAfter_of_ne (by decide)]; rfl⟩
  | newline =>
    rw [renderAfter]
    split
    · next hdropped =>
      obtain ⟨-, -, hparen⟩ := hdropped
      obtain ⟨ts, rfl⟩ : ∃ us, ts = .rparen :: us :=
        List.head?_eq_some_iff.mp (hparen.resolve_left hlast)
      exact ⟨')', by decide, by rw [renderAfter_of_ne (by decide)]; rfl⟩
    · cases layout with
      | pretty => exact ⟨'\n', by decide, rfl⟩
      | compact => exact ⟨' ', by decide, rfl⟩
  | keyword | comparison | dot | star | lparen | indent | ident | qualified | literal | function =>
    cases hu

/-- What follows a token ends it. -/
theorem mem_enders_of_head?_renderAfter {t : Token} {ts : List Token} (hs : Separated (t :: ts))
    (ho : t.isClosed = false) {layout : Layout} {last : Option Char} (hlast : last ≠ some '(') :
    ∀ c ∈ (renderAfter layout last ts).head?, c ∈ t.enders := by
  have hbreak : ∀ c ∈ [' ', '\n', ',', ')'], c ∈ t.enders := by
    intro c hc
    cases t with
    | ident name => exact List.mem_append_left ['.'] hc
    | function name => exact List.mem_append_left ['('] hc
    | _ => exact hc
  cases ts with
  | nil => nofun
  | cons u ts =>
    have hprecede : t.canPrecede u = true := (List.isChain_cons_cons.mp hs).1
    by_cases hu : u.isBreak = true
    · obtain ⟨d, hd, hhead⟩ := exists_head?_renderAfter hu layout hlast ts
      intro c hc
      rw [Option.mem_def, hhead] at hc
      cases hc
      exact hbreak _ hd
    · unfold Token.canPrecede at hprecede
      rw [ho, Bool.eq_false_iff.mpr hu, Bool.false_or, Bool.false_or] at hprecede
      split at hprecede
      · rw [renderAfter_of_ne (by decide)]
        rintro c ⟨rfl⟩
        simp [Token.enders]
      · rw [renderAfter_of_ne (by decide)]
        rintro c ⟨rfl⟩
        simp [Token.enders]
      · cases hprecede

/-- **The text of tokens reads back to them**, whatever the layout and what stands in front. -/
theorem lexemes?_renderAfter {ts : List Token} (hs : Separated ts)
    (hr : ∀ t ∈ ts, t.IsReadable) (layout : Layout) (last : Option Char) :
    lexemes? (renderAfter layout last ts) = some (ts.flatMap Token.lexemes) := by
  induction ts generalizing last with
  | nil => simp [renderAfter, lexemes?]
  | cons t ts ih =>
    obtain ⟨hread, hr⟩ := List.forall_mem_cons.mp hr
    have ih := ih hs.tail hr
    rw [renderAfter, List.flatMap_cons]
    split
    · next hdropped => rw [ih, hdropped.2.1]; rfl
    · have hend : t.isClosed = true ∨ ∀ c ∈ (renderAfter layout
          ((t.chars layout).getLast?.or last) ts).head?, c ∈ t.enders := by
        cases ho : t.isClosed with
        | true => exact .inl rfl
        | false =>
          obtain ⟨c, hc, hne⟩ := exists_getLast?_chars hread ho layout
          refine .inr (mem_enders_of_head?_renderAfter hs ho ?_)
          simpa [hc] using hne
      rw [lexemes?_chars hread hend, ih]
      rfl

/-! ## Outside of quotes -/

/-- The token with nothing between its quotes. -/
def Token.emptied : Token → Token
  | .ident _ => .ident ""
  | .qualified parts => .qualified (parts.map fun _ => "")
  | .literal (.text _) => .literal (.text "")
  | t => t

theorem unquoted_append {cs : List Char} (h : ∀ c ∈ cs, c ≠ '"' ∧ c ≠ '\'')
    (rest : List Char) : unquoted none (cs ++ rest) = cs ++ unquoted none rest := by
  induction cs with
  | nil => rfl
  | cons c cs ih =>
    obtain ⟨hc, hcs⟩ := List.forall_mem_cons.mp h
    simp [unquoted, hc, ih hcs]

theorem unquoted_double (quote : Char) (s rest : List Char)
    (h : quote = '"' ∨ quote = '\'') :
    unquoted (some quote) (double quote s ++ quote :: rest) = unquoted none rest := by
  induction s with
  | nil => simp [double, unquoted]
  | cons c s ih =>
    rw [double]
    split
    · simpa [unquoted, h] using ih
    · next hc => simpa [unquoted, hc] using ih

theorem unquoted_enclose {quote : Char} (h : quote = '"' ∨ quote = '\'') (s rest : List Char) :
    unquoted none (enclose quote s ++ rest) = unquoted none rest := by
  have hopen : unquoted none (quote :: (double quote s ++ quote :: rest)) =
      unquoted (some quote) (double quote s ++ quote :: rest) := by
    rw [unquoted, if_pos (by simpa using h)]
  simpa [enclose, unquoted_double quote s rest h] using hopen

theorem unquoted_qualifiedChars (parts : List String) (rest : List Char) :
    unquoted none (qualifiedChars parts ++ rest) =
      List.replicate (parts.length - 1) '.' ++ unquoted none rest := by
  induction parts with
  | nil => rfl
  | cons part parts ih =>
    cases parts with
    | nil => exact unquoted_enclose (.inl rfl) _ _
    | cons next parts =>
      have hread := unquoted_enclose (.inl rfl) part.toList
        ('.' :: (qualifiedChars (next :: parts) ++ rest))
      have hdot : unquoted none ('.' :: (qualifiedChars (next :: parts) ++ rest)) =
          '.' :: unquoted none (qualifiedChars (next :: parts) ++ rest) := rfl
      rw [hdot, ih] at hread
      simpa [qualifiedChars, quoteName, List.replicate_succ] using hread

/-- Outside of its quotes a token has no quote, and on one line no line break. -/
theorem ne_of_mem_outside {t : Token} (hr : t.IsReadable) {layout : Layout} :
    ∀ c ∈ t.outside layout, (c ≠ '"' ∧ c ≠ '\'') ∧ (layout = .compact → c ≠ '\n') := by
  cases ho : t.isClosed with
  | false =>
    intro c hc
    have hbare := isBare_of_mem_outside hr ho c hc
    simp only [isBare, List.mem_cons, not_or, decide_eq_true_eq] at hbare
    exact ⟨⟨hbare.1, hbare.2.1⟩, fun _ => hbare.2.2.1⟩
  | true =>
    cases t with
    | comma | dot | star | lparen | rparen | space | newline =>
      cases layout <;> exact List.forall_mem_singleton.mpr (by decide)
    | indent depth =>
      cases layout with
      | compact => nofun
      | pretty =>
        intro c hc
        rw [List.eq_of_mem_replicate hc]
        decide
    | keyword | comparison | ident | qualified | literal | function => cases ho

theorem unquoted_chars {t : Token} (hr : t.IsReadable) (layout : Layout) (rest : List Char) :
    unquoted none (t.chars layout ++ rest) = t.outside layout ++ unquoted none rest := by
  have hplain (h : t.outside layout = t.chars layout) :
      unquoted none (t.chars layout ++ rest) = t.outside layout ++ unquoted none rest := by
    rw [h]
    exact unquoted_append (fun c hc => (ne_of_mem_outside hr c (h ▸ hc)).1) rest
  cases t with
  | ident name => exact unquoted_enclose (.inl rfl) _ _
  | qualified parts => exact unquoted_qualifiedChars parts rest
  | literal l =>
    cases l with
    | text s => exact unquoted_enclose (.inr rfl) _ _
    | integer | real => exact hplain rfl
  | keyword | comparison | comma | dot | star | lparen | rparen | space | newline | indent
  | function => exact hplain rfl

theorem isReadable_emptied {t : Token} (hr : t.IsReadable) : t.emptied.IsReadable := by
  cases t with
  | qualified parts => simpa [Token.emptied, Token.IsReadable] using hr
  | literal l => cases l <;> exact hr
  | _ => exact hr

theorem outside_emptied (t : Token) (layout : Layout) :
    t.emptied.outside layout = t.outside layout := by
  cases t with
  | qualified parts => simp [Token.emptied, Token.outside]
  | literal l => cases l <;> rfl
  | _ => rfl

theorem getLast?_chars_emptied {t : Token} (hr : t.IsReadable) (layout : Layout) :
    (t.emptied.chars layout).getLast? = (t.chars layout).getLast? := by
  cases t with
  | ident name => exact (getLast?_enclose _ _).trans (getLast?_enclose _ _).symm
  | qualified parts =>
    have hempty : (Token.qualified (parts.map fun _ => "")).IsReadable := isReadable_emptied hr
    exact (getLast?_qualifiedChars hempty).trans (getLast?_qualifiedChars hr).symm
  | literal l =>
    cases l with
    | text s => exact (getLast?_enclose _ _).trans (getLast?_enclose _ _).symm
    | integer | real => rfl
  | _ => rfl

theorem emptied_eq_iff {t u : Token} (hu : u = .newline ∨ u = .rparen) :
    t.emptied = u ↔ t = u := by
  obtain rfl | rfl := hu <;> (cases t with
    | literal l => cases l <;> simp [Token.emptied]
    | _ => simp [Token.emptied])

theorem head?_map_emptied (ts : List Token) :
    (ts.map Token.emptied).head? = some .rparen ↔ ts.head? = some .rparen := by
  cases ts with
  | nil => rfl
  | cons t ts => simpa using emptied_eq_iff (t := t) (.inr rfl)

section
variable {ts : List Token} (hr : ∀ t ∈ ts, t.IsReadable)
include hr

/-- **What stands between quotes stays there**: outside of them the text is the same with all
quotes emptied. -/
theorem unquoted_renderAfter_emptied (layout : Layout) (last : Option Char) :
    unquoted none (renderAfter layout last ts) =
      unquoted none (renderAfter layout last (ts.map Token.emptied)) := by
  induction ts generalizing last with
  | nil => rfl
  | cons t ts ih =>
    obtain ⟨hread, hr⟩ := List.forall_mem_cons.mp hr
    simp only [List.map_cons, renderAfter, emptied_eq_iff (.inl rfl), head?_map_emptied]
    split
    · exact ih hr last
    · rw [unquoted_chars hread, unquoted_chars (isReadable_emptied hread), outside_emptied,
        getLast?_chars_emptied hread, ih hr]

/-- On one line there is no line break outside of quotes. -/
theorem newline_notMem_unquoted (last : Option Char) :
    '\n' ∉ unquoted none (renderAfter .compact last ts) := by
  induction ts generalizing last with
  | nil => nofun
  | cons t ts ih =>
    obtain ⟨hread, hr⟩ := List.forall_mem_cons.mp hr
    rw [renderAfter]
    split
    · exact ih hr last
    · rw [unquoted_chars hread, List.mem_append, not_or]
      exact ⟨fun hc => (ne_of_mem_outside hread _ hc).2 rfl rfl, ih hr _⟩

end

end EventQuery.Sql
