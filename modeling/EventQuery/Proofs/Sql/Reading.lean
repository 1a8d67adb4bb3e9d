import EventQuery.Proofs.Text.Runs
import EventQuery.Sql.Token

/-! Reading SQL text. Text is a sequence of words, names in double quotes, texts in single quotes,
numerals, operators and punctuation marks, with blanks between them where they are wanted. A quote
inside quotes is written twice. What no such reading fits is refused. -/

namespace EventQuery.Sql

/-- A token as it is found in a text. -/
inductive Lexeme where
  | word (letters : String)
  /-- A name in double quotes, by what stands between them. -/
  | name (contents : String)
  /-- A text in single quotes, by what stands between them. -/
  | text (contents : String)
  | number (numeral : String)
  | symbol (mark : String)
deriving DecidableEq

namespace Reader

def isWordStart (c : Char) : Bool := c.isAlpha || c = '_'

def isWordChar (c : Char) : Bool := c.isAlphanum || c = '_'

/-- What stands before the first quote that is not doubled, and the text behind that quote. -/
def quoted? (quote : Char) : List Char → Option (List Char × List Char)
  | [] => none
  | [c] => if c = quote then some ([], []) else none
  | c :: d :: cs =>
    if c = quote then
      if d = quote then (quoted? quote cs).map fun (s, rest) => (quote :: s, rest)
      else some ([], d :: cs)
    else (quoted? quote (d :: cs)).map fun (s, rest) => (c :: s, rest)

def sign : List Char → List Char
  | '-' :: _ => ['-']
  | '+' :: _ => ['+']
  | _ => []

def digits (cs : List Char) : List Char := cs.takeWhile Char.isDigit

/-- A point and the digits behind it. -/
def fraction : List Char → List Char
  | '.' :: cs => if (digits cs).isEmpty then [] else '.' :: digits cs
  | _ => []

/-- An `e` and the digits behind it, with a sign or not. -/
def exponent : List Char → List Char
  | c :: cs =>
    let ds := digits (cs.drop (sign cs).length)
    if (c = 'e' || c = 'E') && !ds.isEmpty then c :: sign cs ++ ds else []
  | [] => []

/-- The numeral at the front of a text: a sign or none, digits, and perhaps a fraction and an
exponent. -/
def numeral? (cs : List Char) : Option (List Char) :=
  let whole := digits (cs.drop (sign cs).length)
  let behindWhole := cs.drop ((sign cs).length + whole.length)
  let behindFraction := behindWhole.drop (fraction behindWhole).length
  if whole.isEmpty then none
  else some (sign cs ++ whole ++ fraction behindWhole ++ exponent behindFraction)

/-- The longest operator or punctuation mark at the front of a text. -/
def symbol? : List Char → Option (List Char)
  | '<' :: '>' :: _ => some ['<', '>']
  | '<' :: '=' :: _ => some ['<', '=']
  | '>' :: '=' :: _ => some ['>', '=']
  | c :: _ => if c ∈ ['<', '>', '=', ',', '.', '*', '(', ')'] then some [c] else none
  | [] => none

/-- The token at the front of a text, and the text behind it. -/
def front? : List Char → Option (Lexeme × List Char)
  | [] => none
  | c :: cs =>
    if c = '"' then (quoted? c cs).map fun (s, rest) => (.name (String.ofList s), rest)
    else if c = '\'' then (quoted? c cs).map fun (s, rest) => (.text (String.ofList s), rest)
    else if isWordStart c then
      some (.word (String.ofList (c :: cs.takeWhile isWordChar)), cs.dropWhile isWordChar)
    else
      match numeral? (c :: cs) with
      | some n => some (.number (String.ofList n), (c :: cs).drop n.length)
      | none =>
        (symbol? (c :: cs)).map fun s => (.symbol (String.ofList s), (c :: cs).drop s.length)

theorem length_lt_of_quoted? {quote : Char} {cs s rest : List Char}
    (h : quoted? quote cs = some (s, rest)) : rest.length < cs.length := by
  fun_induction quoted? quote cs generalizing s with
  | case1 => cases h
  | case2 => cases h; simp
  | case3 => cases h
  | case4 cs ih =>
    obtain ⟨⟨s', rest'⟩, hs, he⟩ := Option.map_eq_some_iff.mp h
    cases he
    have := ih hs
    simp only [List.length_cons]
    omega
  | case5 => cases h; simp
  | case6 c d cs hc ih =>
    obtain ⟨⟨s', rest'⟩, hs, he⟩ := Option.map_eq_some_iff.mp h
    cases he
    have := ih hs
    simp only [List.length_cons] at this ⊢
    omega

theorem ne_nil_of_numeral? {cs n : List Char} (h : numeral? cs = some n) : n ≠ [] := by
  simp only [numeral?] at h
  split at h
  · cases h
  · next hw =>
    cases h
    simpa using fun _ h => absurd h (by simpa using hw)

theorem ne_nil_of_symbol? {cs s : List Char} (h : symbol? cs = some s) : s ≠ [] := by
  unfold symbol? at h
  split at h
  · cases h; exact List.cons_ne_nil _ _
  · cases h; exact List.cons_ne_nil _ _
  · cases h; exact List.cons_ne_nil _ _
  · split at h
    · cases h; exact List.cons_ne_nil _ _
    · cases h
  · cases h

/-- Each lexeme takes a character at least, so reading ends. -/
theorem length_lt_of_front? {cs rest : List Char} {l : Lexeme} (h : front? cs = some (l, rest)) :
    rest.length < cs.length := by
  have hdrop : ∀ {c : Char} {cs n : List Char}, n ≠ [] →
      ((c :: cs).drop n.length).length < (c :: cs).length := by
    intro c cs n hn
    have := List.length_pos_iff.mpr hn
    simp only [List.length_drop, List.length_cons]
    omega
  cases cs with
  | nil => cases h
  | cons c cs =>
    simp only [front?] at h
    split at h
    · obtain ⟨x, hx, he⟩ := Option.map_eq_some_iff.mp h
      cases he
      exact Nat.lt_succ_of_lt (length_lt_of_quoted? hx)
    · split at h
      · obtain ⟨x, hx, he⟩ := Option.map_eq_some_iff.mp h
        cases he
        exact Nat.lt_succ_of_lt (length_lt_of_quoted? hx)
      · split at h
        · cases h
          exact Nat.lt_succ_of_le (List.dropWhile_suffix _).length_le
        · split at h
          · next n hn =>
            cases h
            exact hdrop (ne_nil_of_numeral? hn)
          · obtain ⟨s, hs, he⟩ := Option.map_eq_some_iff.mp h
            cases he
            exact hdrop (ne_nil_of_symbol? hs)

/-- All tokens of a text; none where it cannot be read to its end. -/
def lexemes? : List Char → Option (List Lexeme)
  | [] => some []
  | c :: cs =>
    if c.isWhitespace then lexemes? cs
    else
      match h : front? (c :: cs) with
      | none => none
      | some (l, rest) =>
        have := length_lt_of_front? h
        (lexemes? rest).map (l :: ·)
termination_by cs => cs.length
decreasing_by
  · simp
  · exact this

/-- The characters of a text that stand outside of quotes, the text starting inside if a quote is
given. -/
def unquoted : Option Char → List Char → List Char
  | _, [] => []
  | none, c :: cs => if c = '"' || c = '\'' then unquoted (some c) cs else c :: unquoted none cs
  | some quote, c :: cs => if c = quote then unquoted none cs else unquoted (some quote) cs

/-! ## One token -/

theorem lexemes?_of_isWhitespace {c : Char} (h : c.isWhitespace = true) (cs : List Char) :
    lexemes? (c :: cs) = lexemes? cs := by
  rw [lexemes?, if_pos h]

/-- Behind the first lexeme, reading goes on with what is left. -/
theorem lexemes?_of_front? {c : Char} {cs rest : List Char} {l : Lexeme}
    (hc : c.isWhitespace = false) (h : front? (c :: cs) = some (l, rest)) :
    lexemes? (c :: cs) = (lexemes? rest).map (l :: ·) := by
  rw [lexemes?, if_neg (by simp [hc])]
  split
  · next hnone => rw [h] at hnone; cases hnone
  · next hsome => rw [h] at hsome; cases hsome; rfl

/-! ### Quotes -/

/-- A text whose quotes are doubled is read back, if no further quote stands behind the closing
one. -/
theorem quoted?_double {quote : Char} {rest : List Char} (h : rest.head? ≠ some quote)
    (s : List Char) : quoted? quote (double quote s ++ quote :: rest) = some (s, rest) := by
  induction s with
  | nil =>
    cases rest with
    | nil => simp [double, quoted?]
    | cons d rest =>
      have hd : d ≠ quote := by simpa using h
      simp [double, quoted?, hd]
  | cons c s ih =>
    rw [double]
    split
    · next hc => simp [quoted?, ih, hc]
    · next hc =>
      obtain ⟨d, ds, hds⟩ : ∃ d ds, double quote s ++ quote :: rest = d :: ds :=
        List.exists_cons_of_ne_nil (by simp)
      rw [List.cons_append, hds, quoted?, if_neg hc, ← hds, ih]
      rfl

/-- A name in quotes is read back whatever it has in it. -/
theorem lexemes?_name {rest : List Char} (h : rest.head? ≠ some '"') (s : String) :
    lexemes? (quoteName s ++ rest) = (lexemes? rest).map (.name s :: ·) := by
  have hfront : front? ('"' :: (double '"' s.toList ++ '"' :: rest)) = some (.name s, rest) := by
    rw [front?, if_pos rfl, quoted?_double h]
    simp
  simpa [quoteName, enclose] using lexemes?_of_front? (by decide) hfront

theorem lexemes?_text {rest : List Char} (h : rest.head? ≠ some '\'') (s : String) :
    lexemes? (enclose '\'' s.toList ++ rest) = (lexemes? rest).map (.text s :: ·) := by
  have hfront : front? ('\'' :: (double '\'' s.toList ++ '\'' :: rest)) = some (.text s, rest) := by
    rw [front?, if_neg (by decide), if_pos rfl, quoted?_double h]
    simp
  simpa [enclose] using lexemes?_of_front? (by decide) hfront

/-! ### Words -/

/-- A text that starts as words do and goes on as they do. -/
def IsWord : List Char → Prop
  | [] => False
  | c :: cs => isWordStart c = true ∧ ∀ d ∈ cs, isWordChar d = true

instance : (cs : List Char) → Decidable (IsWord cs)
  | [] => inferInstanceAs (Decidable False)
  | c :: cs => decidable_of_iff (isWordStart c = true ∧ cs.all isWordChar = true)
      (and_congr_right' List.all_eq_true)

/-- A class that has no blank and no quote. -/
def IsPlainClass (p : Char → Bool) : Prop :=
  [' ', '\t', '\r', '\n', '"', '\''].any p = false

instance (p : Char → Bool) : Decidable (IsPlainClass p) := inferInstanceAs (Decidable (_ = _))

theorem IsPlainClass.ne {p : Char → Bool} (hp : IsPlainClass p) {c : Char} (h : p c = true) :
    c.isWhitespace = false ∧ c ≠ '"' ∧ c ≠ '\'' := by
  have hne : ∀ d ∈ [' ', '\t', '\r', '\n', '"', '\''], c ≠ d := by
    rintro d hd rfl
    exact List.any_eq_false.mp hp c hd h
  simpa [Char.isWhitespace, and_assoc] using hne

/-- A word is read to its end, which is where no character of words follows. -/
theorem lexemes?_word {cs rest : List Char} (h : IsWord cs)
    (hrest : ∀ c ∈ rest.head?, isWordChar c = false) :
    lexemes? (cs ++ rest) = (lexemes? rest).map (.word (String.ofList cs) :: ·) := by
  cases cs with
  | nil => cases h
  | cons c cs =>
    obtain ⟨hc, hcs⟩ := h
    obtain ⟨hblank, hname, htext⟩ := IsPlainClass.ne (p := isWordStart) (by decide) hc
    have hfront : front? (c :: (cs ++ rest)) = some (.word (String.ofList (c :: cs)), rest) := by
      rw [front?, if_neg hname, if_neg htext, if_pos hc,
        Text.takeWhile_append_of_head? hcs hrest, Text.dropWhile_append_of_head? hcs hrest]
    exact lexemes?_of_front? hblank hfront

/-! ### Numerals -/

def IsDigits (ds : List Char) : Prop := ds ≠ [] ∧ ∀ c ∈ ds, c.isDigit = true

def IsSign (s : List Char) : Prop := s = [] ∨ s = ['-'] ∨ s = ['+']

def IsFraction (f : List Char) : Prop := f = [] ∨ ∃ ds, IsDigits ds ∧ f = '.' :: ds

def IsExponent (e : List Char) : Prop :=
  e = [] ∨ ∃ s ds, IsSign s ∧ IsDigits ds ∧ e = 'e' :: s ++ ds

/-- A sign or none, digits, and perhaps a fraction and an exponent. -/
inductive IsNumeral : List Char → Prop
  | mk {s whole f e : List Char} (sign : IsSign s) (digits : IsDigits whole)
      (fraction : IsFraction f) (exponent : IsExponent e) : IsNumeral (s ++ whole ++ f ++ e)

/-- A numeral ends where this text starts. -/
def EndsNumeral (rest : List Char) : Prop :=
  ∀ c ∈ rest.head?, c.isDigit = false ∧ c ≠ '.' ∧ c ≠ 'e' ∧ c ≠ 'E'

theorem digits_append {ds rest : List Char} (h : IsDigits ds)
    (hrest : ∀ c ∈ rest.head?, c.isDigit = false) : digits (ds ++ rest) = ds :=
  Text.takeWhile_append_of_head? h.2 hrest

theorem sign_append {s ds rest : List Char} (hs : IsSign s) (hd : IsDigits ds) :
    sign (s ++ ds ++ rest) = s := by
  obtain rfl | rfl | rfl := hs
  · obtain ⟨hne, hd⟩ := hd
    obtain ⟨d, ds, rfl⟩ := List.exists_cons_of_ne_nil hne
    have hdigit := hd d List.mem_cons_self
    rw [List.nil_append, List.cons_append]
    unfold sign
    split
    · next he => cases he; exact absurd hdigit (by decide)
    · next he => cases he; exact absurd hdigit (by decide)
    · rfl
  · rfl
  · rfl

theorem fraction_append {f rest : List Char} (hf : IsFraction f)
    (hrest : ∀ c ∈ rest.head?, c.isDigit = false ∧ c ≠ '.') : fraction (f ++ rest) = f := by
  obtain rfl | ⟨ds, hds, rfl⟩ := hf
  · rw [List.nil_append]
    unfold fraction
    split
    · next he => exact absurd rfl (hrest '.' rfl).2
    · rfl
  · rw [List.cons_append, fraction, digits_append hds fun c hc => (hrest c hc).1]
    simp [hds.1]

/-- An exponent is read whole, and where there is none, none is read. -/
theorem exponent_append {e rest : List Char} (he : IsExponent e) (hrest : EndsNumeral rest) :
    exponent (e ++ rest) = e := by
  obtain rfl | ⟨s, ds, hs, hds, rfl⟩ := he
  · cases rest with
    | nil => rfl
    | cons c rest =>
      obtain ⟨-, -, h₁, h₂⟩ := hrest c rfl
      simp [exponent, h₁, h₂]
  · have hsign : sign (s ++ ds ++ rest) = s := sign_append hs hds
    have hdigits : digits (ds ++ rest) = ds := digits_append hds fun c hc => (hrest c hc).1
    rw [List.append_assoc] at hsign
    simp [exponent, hsign, hdigits, hds.1]

/-- What follows the digits of a numeral in a text is no digit. -/
theorem head?_fraction_append {f e rest : List Char} (hf : IsFraction f) (he : IsExponent e)
    (hrest : EndsNumeral rest) : ∀ c ∈ (f ++ (e ++ rest)).head?, c.isDigit = false := by
  obtain rfl | ⟨ds, -, rfl⟩ := hf
  · obtain rfl | ⟨s, ds, -, -, rfl⟩ := he
    · exact fun c hc => (hrest c hc).1
    · rintro c ⟨rfl⟩
      decide
  · rintro c ⟨rfl⟩
    decide

/-- A numeral is read to its end: neither a digit nor the beginning of a fraction or an exponent may
follow. -/
theorem numeral?_append {n rest : List Char} (h : IsNumeral n) (hrest : EndsNumeral rest) :
    numeral? (n ++ rest) = some n := by
  obtain ⟨hs, hw, hf, he⟩ := h
  next s whole f e =>
  have hexponent : ∀ c ∈ (e ++ rest).head?, c.isDigit = false ∧ c ≠ '.' := by
    obtain rfl | ⟨s, ds, -, -, rfl⟩ := he
    · exact fun c hc => ⟨(hrest c hc).1, (hrest c hc).2.1⟩
    · rintro c ⟨rfl⟩
      decide
  have hsign : sign (s ++ (whole ++ (f ++ (e ++ rest)))) = s := by
    rw [← List.append_assoc]
    exact sign_append hs hw
  have hdigits : digits (whole ++ (f ++ (e ++ rest))) = whole :=
    digits_append hw (head?_fraction_append hf he hrest)
  have hfraction : fraction (f ++ (e ++ rest)) = f := fraction_append hf hexponent
  have hexponent : exponent (e ++ rest) = e := exponent_append he hrest
  simp only [List.append_assoc, numeral?, hsign, List.drop_left, hdigits, ← List.drop_drop,
    hfraction, hexponent]
  rw [if_neg (by simpa using hw.1)]

/-- What a numeral starts with. -/
def isNumeralStart (c : Char) : Bool := c.isDigit || c = '-' || c = '+'

theorem isNumeralStart_of_isNumeral {c : Char} {n : List Char} (h : IsNumeral (c :: n)) :
    isNumeralStart c = true := by
  generalize hn : c :: n = cs at h
  obtain ⟨hs, ⟨hne, hw⟩, -, -⟩ := h
  obtain ⟨d, ds, rfl⟩ := List.exists_cons_of_ne_nil hne
  obtain rfl | rfl | rfl := hs
  · cases hn
    simp [isNumeralStart, hw c List.mem_cons_self]
  · cases hn
    rfl
  · cases hn
    rfl

theorem isWordStart_of_isNumeralStart {c : Char} (h : isNumeralStart c = true) :
    isWordStart c = false := by
  simp only [isNumeralStart, Bool.or_eq_true, decide_eq_true_eq] at h
  obtain (h | rfl) | rfl := h
  · exact Text.forall_ascii (p := fun c => c.isDigit = true → isWordStart c = false)
      (by decide +kernel) (Text.toNat_lt_of_isDigit h) h
  · decide
  · decide

theorem lexemes?_numeral {n rest : List Char} (h : IsNumeral n) (hrest : EndsNumeral rest) :
    lexemes? (n ++ rest) = (lexemes? rest).map (.number (String.ofList n) :: ·) := by
  have hread := numeral?_append h hrest
  cases n with
  | nil => exact absurd rfl (ne_nil_of_numeral? hread)
  | cons c n =>
    have hstart := isNumeralStart_of_isNumeral h
    obtain ⟨hblank, hname, htext⟩ := IsPlainClass.ne (p := isNumeralStart) (by decide) hstart
    have hword := isWordStart_of_isNumeralStart hstart
    have hfront : front? (c :: (n ++ rest)) = some (.number (String.ofList (c :: n)), rest) := by
      rw [List.cons_append] at hread
      simp [front?, hname, htext, hword, hread]
    exact lexemes?_of_front? hblank hfront

/-! ### Marks -/

def marks : List Char := ['<', '>', '=', ',', '.', '*', '(', ')']

/-- A mark starts no word and no numeral, and stands in no quotes. -/
theorem lexemes?_of_symbol? {c : Char} {cs s : List Char} (hc : c ∈ marks)
    (h : symbol? (c :: cs) = some s) :
    lexemes? (c :: cs) =
      (lexemes? ((c :: cs).drop s.length)).map (.symbol (String.ofList s) :: ·) := by
  have hplain : c.isWhitespace = false ∧ c ≠ '"' ∧ c ≠ '\'' ∧ isWordStart c = false ∧
      c.isDigit = false ∧ c ≠ '-' ∧ c ≠ '+' := by
    simp only [marks, List.mem_cons, List.not_mem_nil, or_false] at hc
    obtain rfl | rfl | rfl | rfl | rfl | rfl | rfl | rfl := hc <;> decide
  obtain ⟨hblank, hname, htext, hword, hdigit, hminus, hplus⟩ := hplain
  have hsign : sign (c :: cs) = [] := by
    unfold sign
    split
    · next he => exact absurd (List.cons.inj he).1 hminus
    · next he => exact absurd (List.cons.inj he).1 hplus
    · rfl
  have hnumeral : numeral? (c :: cs) = none := by
    simp [numeral?, hsign, digits, hdigit]
  refine lexemes?_of_front? hblank ?_
  simp [front?, hname, htext, hword, hnumeral, h]

theorem lexemes?_symbol {c : Char} (hc : c ∈ [',', '.', '*', '(', ')']) (rest : List Char) :
    lexemes? (c :: rest) = (lexemes? rest).map (.symbol (String.ofList [c]) :: ·) := by
  refine lexemes?_of_symbol? (s := [c]) ?_ ?_
  · exact List.mem_append_right ['<', '>', '='] hc
  · simp only [List.mem_cons, List.not_mem_nil, or_false] at hc
    obtain rfl | rfl | rfl | rfl | rfl := hc <;> rfl

/-- A sign of comparison is not to be followed by one that would make it longer. -/
theorem lexemes?_comparison {rest : List Char} (h : ∀ c ∈ rest.head?, c ≠ '=' ∧ c ≠ '>')
    (c : Comparison) :
    lexemes? ((comparisonText c).toList ++ rest) =
      (lexemes? rest).map (.symbol (comparisonText c) :: ·) := by
  cases c with
  | eq => exact lexemes?_of_symbol? (s := ['=']) (by decide) rfl
  | ne => exact lexemes?_of_symbol? (s := ['<', '>']) (by decide) rfl
  | le => exact lexemes?_of_symbol? (s := ['<', '=']) (by decide) rfl
  | ge => exact lexemes?_of_symbol? (s := ['>', '=']) (by decide) rfl
  | lt =>
    have hsymbol : symbol? ('<' :: rest) = some ['<'] := by
      cases rest with
      | nil => rfl
      | cons d rest => simp [symbol?, h d rfl]
    exact lexemes?_of_symbol? (by decide) hsymbol
  | gt =>
    have hsymbol : symbol? ('>' :: rest) = some ['>'] := by
      cases rest with
      | nil => rfl
      | cons d rest => simp [symbol?, h d rfl]
    exact lexemes?_of_symbol? (by decide) hsymbol

end Reader

end EventQuery.Sql
