import EventQuery.Proofs.Number.Written
import EventQuery.Proofs.Sql.Phrases

/-! Expressions and queries are recovered from what their text reads as, although conditions have no
parentheses. This is so for those that datasets are written with: operands are columns of tables or
finite literals, functions are called with operands, and a condition is a chain of comparisons of
operands. -/

namespace EventQuery

/-! ## Literals -/

def Literal.lexeme : Literal → Sql.Lexeme
  | .text s => .text s
  | .integer n => .number (toString n)
  | .real x => .number (NumberLayout.literal.write x)

/-- Finite numbers are written so that no two are the same, and an integer is never written as a
real number is. -/
theorem Literal.eq_of_lexeme_eq {l m : Literal} (hl : l.isFinite = true) (hm : m.isFinite = true)
    (h : l.lexeme = m.lexeme) : l = m := by
  have hpoint : NumberLayout.literal.pointZero = true := rfl
  match l, m with
  | .text s, .text t => rw [Sql.Lexeme.text.inj h]
  | .integer n, .integer k => rw [Numeral.eq_of_toString_eq (Sql.Lexeme.number.inj h)]
  | .real x, .real y => rw [NumberLayout.eq_of_write_eq hl hm (Sql.Lexeme.number.inj h)]
  | .integer n, .real y =>
    exact absurd (Sql.Lexeme.number.inj h).symm (NumberLayout.write_ne_toString hpoint hm n)
  | .real x, .integer k =>
    exact absurd (Sql.Lexeme.number.inj h) (NumberLayout.write_ne_toString hpoint hl k)

/-- A literal is never taken for a word, a name or a mark, so it can end no list. -/
theorem Literal.lexeme_ne (l : Literal) (w : String) :
    l.lexeme ≠ .word w ∧ l.lexeme ≠ .name w ∧ l.lexeme ≠ .symbol w := by
  cases l <;> exact ⟨nofun, nofun, nofun⟩

namespace Sql

@[simp] theorem lexemes_literal (l : Literal) (ts : List Token) :
    lexemes (.literal l :: ts) = l.lexeme :: lexemes ts := by
  cases l <;> rfl

def Expr.phrase (e : Expr) : List Lexeme := lexemes e.tokens

def orderPhrase (p : Expr × Option Direction) : List Lexeme :=
  p.1.phrase ++ lexemes (directionTokens p.2)

def SelectItem.phrase (item : SelectItem) : List Lexeme := lexemes item.tokens

def TableRef.phrase (table : TableRef) : List Lexeme := lexemes table.tokens

def Join.phrase (j : Join) : List Lexeme := lexemes j.tokens

namespace Expr

/-- A column of a table or a finite literal. -/
inductive IsOperand : Expr → Prop
  | column (table name : String) : IsOperand (.column (some table) name)
  | literal {l : Literal} : l.isFinite = true → IsOperand (.literal l)

/-- A function is called with operands. Its name is in capitals, and it is not the word behind the
columns of a query. -/
inductive IsCall : Expr → Prop
  | call {function : String} {args : List Expr} (distinct : Bool) :
    Text.upper function = function → function ≠ "FROM" → (∀ e ∈ args, IsOperand e) →
      IsCall (.call function args distinct)

/-- A call over a window of rows. -/
inductive IsWindow : Expr → Prop
  | window {function : Expr} {partition : List Expr} {order : List (Expr × Option Direction)}
    (frame : Option Frame) : IsCall function → (∀ e ∈ partition, IsOperand e) →
      (∀ p ∈ order, IsOperand p.1) → IsWindow (.window function partition order frame)

inductive IsStar : Expr → Prop
  | star (table : String) : IsStar (.star (some table))

/-- An output column. -/
def IsOutput (e : Expr) : Prop := (e.IsStar ∨ e.IsOperand) ∨ e.IsCall ∨ e.IsWindow

/-- Comparisons of operands, all of which have to hold. -/
inductive IsCondition : Expr → Prop
  | compare {left right : Expr} (c : Comparison) : IsOperand left → IsOperand right →
      IsCondition (.compare c left right)
  | and {left right e : Expr} (c : Comparison) : IsOperand left → IsOperand right →
      IsCondition e → IsCondition (.and (.compare c left right) e)

/-! ## Operands and calls -/

theorem phrase_column (table name : String) :
    (column (some table) name).phrase = [.name table, .symbol ".", .name name] := by
  simp [phrase, tokens, tableTokens]

theorem phrase_literal (l : Literal) : (literal l).phrase = [l.lexeme] := by
  simp [phrase, tokens]

/-- An operand starts with neither a word nor a mark. -/
theorem exists_lead_operand {e : Expr} (h : e.IsOperand) : ∃ l tail,
    e.phrase = l :: tail ∧ ∀ w, l ≠ .word w ∧ l ≠ .symbol w := by
  cases h with
  | column table name => exact ⟨_, _, phrase_column table name, fun w => ⟨nofun, nofun⟩⟩
  | literal hl =>
    refine ⟨_, _, phrase_literal _, fun w => ?_⟩
    exact ⟨(Literal.lexeme_ne _ w).1, (Literal.lexeme_ne _ w).2.2⟩

/-- A column and a literal are told apart by their first lexeme; nothing is asked of what
follows. -/
theorem recovers_operand : Recovers [] IsOperand phrase := by
  rintro _ _ r s (⟨table, name⟩ | hl) (⟨table', name'⟩ | hm) - - h
  · simpa [phrase_column, and_assoc] using h
  · rw [phrase_column, phrase_literal] at h
    exact absurd (List.cons.inj h).1.symm (Literal.lexeme_ne _ table).2.1
  · rw [phrase_column, phrase_literal] at h
    exact absurd (List.cons.inj h).1 (Literal.lexeme_ne _ table').2.1
  · rw [phrase_literal, phrase_literal] at h
    obtain ⟨hlexeme, hrest⟩ := List.cons.inj h
    exact ⟨congrArg _ (Literal.eq_of_lexeme_eq hl hm hlexeme), hrest⟩

theorem lexemes_exprsTokens (es : List Expr) :
    lexemes (exprsTokens es) = listed (.symbol ",") phrase es := by
  refine lexemes_eq_listed ?_ ?_ ?_ es
  · rw [exprsTokens, lexemes_nil]
  · exact fun e => by rw [exprsTokens, phrase]
  · exact fun e next rest => by simp [exprsTokens, phrase]

/-- The function is a word in capitals; the brackets are marks, so the arguments are enclosed. -/
theorem phrase_call (function : String) (args : List Expr) (distinct : Bool) :
    (call function args distinct).phrase =
      .word (Text.upper function) :: .symbol "(" ::
        ((if distinct then [.word "DISTINCT"] else []) ++
          (listed (.symbol ",") phrase args ++ [.symbol ")"])) := by
  cases distinct <;>
    simp [phrase, tokens, lexemes_exprsTokens, Keyword.words, Keyword.text]

/-- A call is recovered if its function is called in capitals, for the text only has these. -/
theorem recovers_call : Recovers [] IsCall phrase := by
  rintro _ _ r s ⟨distinct, hupper, -, hargs⟩ ⟨distinct', hupper', -, hargs'⟩ - - h
  simp only [phrase_call, List.cons_append, List.append_assoc, List.nil_append, List.cons.injEq,
    Lexeme.word.injEq, hupper, hupper', true_and] at h
  obtain ⟨rfl, hrest⟩ := h
  -- The word in front of the arguments is none of them, nor is the closing parenthesis.
  have hnext {args : List Expr} {r : List Lexeme} (hargs : ∀ e ∈ args, IsOperand e) :
      Avoids [.word "DISTINCT"] (listed (.symbol ",") phrase args ++ .symbol ")" :: r) := by
    refine avoids_listed (avoids_cons.mpr (by decide)) fun e he => ?_
    obtain ⟨l, tail, htail, hl⟩ := exists_lead_operand (hargs e he)
    exact ⟨l, tail, htail, by simpa using (hl "DISTINCT").1⟩
  obtain ⟨rfl, hlist⟩ := recovers_flag _ (hnext hargs) (hnext hargs') hrest
  have hclose : ∀ e, IsOperand e → ∃ l tail, e.phrase = l :: tail ∧ l ≠ .symbol ")" := by
    intro e he
    obtain ⟨l, tail, htail, hl⟩ := exists_lead_operand he
    exact ⟨l, tail, htail, (hl ")").2⟩
  obtain ⟨rfl, rfl⟩ :=
    recovers_operand.listed_closed (by simp) (by decide) hclose hargs hargs' hlist
  exact ⟨rfl, rfl⟩

/-! ## Windows -/

theorem lexemes_spaced (parts : List (List Token)) :
    lexemes (spaced parts) = parts.flatMap lexemes := by
  induction parts with
  | nil => rfl
  | cons part parts ih =>
    cases parts with
    | nil => simp [spaced]
    | cons next parts => simp [spaced, ih]

theorem lexemes_orderTokens (order : List (Expr × Option Direction)) :
    lexemes (orderTokens order) = listed (.symbol ",") orderPhrase order := by
  refine lexemes_eq_listed ?_ ?_ ?_ order
  · rw [orderTokens, lexemes_nil]
  · exact fun p => by rw [orderTokens, lexemes_append, orderPhrase, phrase]
  · exact fun p next rest => by simp [orderTokens, orderPhrase, phrase]

/-- An expression to order by is followed by its direction or by none, so neither word may stand
behind it. -/
theorem recovers_direction : Recovers [.word "ASC", .word "DESC"]
    (fun _ : Option Direction => True) fun d => lexemes (directionTokens d) := by
  rintro d d' r s - - hr hs h
  rcases d with _ | (_ | _) <;> rcases d' with _ | (_ | _) <;>
    simp only [directionTokens, lexemes_nil, lexemes_space, lexemes_keyword, Keyword.words,
      Keyword.text, List.append_nil, List.nil_append, List.cons_append, List.cons.injEq] at h
  · exact ⟨rfl, h⟩
  · exact absurd h (hr.ne_cons (by decide))
  · exact absurd h (hr.ne_cons (by decide))
  · exact absurd h.symm (hs.ne_cons (by decide))
  · exact ⟨rfl, h.2⟩
  · exact absurd h.1 (by decide)
  · exact absurd h.symm (hs.ne_cons (by decide))
  · exact absurd h.1 (by decide)
  · exact ⟨rfl, h.2⟩

theorem recovers_order : Recovers [.word "ASC", .word "DESC"]
    (fun p : Expr × Option Direction => p.1.IsOperand) orderPhrase := by
  rintro ⟨e, d⟩ ⟨e', d'⟩ r s he he' hr hs h
  simp only [orderPhrase, List.append_assoc] at h
  obtain ⟨rfl, hdirection⟩ := recovers_operand he he' nofun nofun h
  obtain ⟨rfl, rfl⟩ := recovers_direction trivial trivial hr hs hdirection
  exact ⟨rfl, rfl⟩

/-- What stands behind the first words of a frame. -/
def boundsPhrase (f : Frame) : List Lexeme :=
  lexemes f.start.tokens ++ .word "AND" :: lexemes f.stop.tokens

theorem recovers_bounds : Recovers [] (fun _ : Frame => True) boundsPhrase := by
  rintro ⟨start, stop⟩ ⟨start', stop'⟩ r s - - - - h
  cases start <;> cases stop <;> cases start' <;> cases stop' <;>
    simp_all [boundsPhrase, Bound.tokens, Keyword.words, Keyword.text]

theorem recovers_operands (lead : Lexeme) (more : List Lexeme) :
    Recovers [lead, .symbol ","] (fun es : List Expr => ∀ e ∈ es, e.IsOperand)
      (clause lead more (.symbol ",") phrase) :=
  recovers_operand.clause (by simp) lead more

/-- A window is three parts in brackets, each left out where it is empty and each led by a word of
its own. -/
theorem phrase_window (function : Expr) (partition : List Expr)
    (order : List (Expr × Option Direction)) (frame : Option Frame) :
    (window function partition order frame).phrase =
      function.phrase ++ .word "OVER" :: .symbol "(" ::
        (clause (.word "PARTITION") [.word "BY"] (.symbol ",") phrase partition ++
          (clause (.word "ORDER") [.word "BY"] (.symbol ",") orderPhrase order ++
            (optional (.word "ROWS") [.word "BETWEEN"] boundsPhrase frame ++ [.symbol ")"]))) := by
  rw [phrase, tokens]
  cases frame <;> cases partition <;> cases order <;>
    simp [lexemes_spaced, lexemes_exprsTokens, lexemes_orderTokens, Keyword.words, Keyword.text,
      Frame.tokens, boundsPhrase, clause, optional, phrase]

/-- A call in front of `OVER` is recovered first, then the three parts from the words that lead
them. -/
theorem recovers_window : Recovers [] IsWindow phrase := by
  rintro _ _ r s ⟨frame, hf, hp, ho⟩ ⟨frame', hf', hp', ho'⟩ - - h
  have hclose {ls : List Lexeme} (hls : .symbol ")" ∉ ls) (r : List Lexeme) :
      Avoids ls ([.symbol ")"] ++ r) := avoids_cons.mpr hls
  simp only [phrase_window, List.append_assoc, List.cons_append] at h
  obtain ⟨rfl, hover⟩ := recovers_call hf hf' nofun nofun h
  simp only [List.cons.injEq, true_and] at hover
  obtain ⟨rfl, horder⟩ := recovers_operands _ _ hp hp'
    (avoids_clause (by decide) (avoids_optional (by decide) (hclose (by decide) r)))
    (avoids_clause (by decide) (avoids_optional (by decide) (hclose (by decide) s))) hover
  obtain ⟨rfl, hframe⟩ := recovers_order.clause (by decide) _ _ ho ho'
    (avoids_optional (by decide) (hclose (by decide) r))
    (avoids_optional (by decide) (hclose (by decide) s)) horder
  obtain ⟨rfl, hrest⟩ := recovers_bounds.optional _ _ (fun _ _ => trivial) (fun _ _ => trivial)
    (hclose (by decide) r) (hclose (by decide) s) hframe
  exact ⟨rfl, (List.cons.inj hrest).2⟩

/-! ## Output columns -/

theorem phrase_star (table : String) :
    (star (some table)).phrase = [.name table, .symbol ".", .symbol "*"] := by
  simp [phrase, tokens, tableTokens]

theorem recovers_star : Recovers [] IsStar phrase := by
  rintro _ _ r s ⟨table⟩ ⟨table'⟩ - - h
  simpa [phrase_star] using h

/-- A column and the star of its table have two lexemes in common and are told apart by the
third. -/
theorem recovers_star_or_operand :
    Recovers [] (fun e : Expr => e.IsStar ∨ e.IsOperand) phrase := by
  refine recovers_star.or recovers_operand ?_
  rintro _ _ r s ⟨table⟩ (⟨table', name⟩ | hl) - h
  · simp [phrase_star, phrase_column] at h
  · rw [phrase_star, phrase_literal] at h
    exact (Literal.lexeme_ne _ table).2.1 (List.cons.inj h).1.symm

/-- A call is a window without `OVER` behind it, so this word may not follow. -/
theorem recovers_call_or_window :
    Recovers [.word "OVER"] (fun e : Expr => e.IsCall ∨ e.IsWindow) phrase := by
  refine (recovers_call.mono nofun).or (recovers_window.mono nofun) ?_
  rintro _ _ r s hcall ⟨frame, hf, -, -⟩ hr h
  rw [phrase_window, List.append_assoc] at h
  obtain ⟨-, hover⟩ := recovers_call hcall hf nofun nofun h
  exact hr.ne_cons List.mem_cons_self hover

theorem exists_lead_star_or_operand {e : Expr} (h : e.IsStar ∨ e.IsOperand) :
    ∃ l tail, e.phrase = l :: tail ∧ ∀ w, l ≠ .word w := by
  obtain ⟨⟨table⟩⟩ | h := h
  · exact ⟨_, _, phrase_star table, nofun⟩
  · obtain ⟨l, tail, htail, hl⟩ := exists_lead_operand h
    exact ⟨l, tail, htail, fun w => (hl w).1⟩

/-- Functions named `FROM` are excluded: such a call would read as the end of the list of
columns. -/
theorem exists_word_call_or_window {e : Expr} (h : e.IsCall ∨ e.IsWindow) :
    ∃ w tail, e.phrase = .word w :: tail ∧ w ≠ "FROM" := by
  have hcall {e : Expr} (h : e.IsCall) : ∃ w tail, e.phrase = .word w :: tail ∧ w ≠ "FROM" := by
    obtain ⟨distinct, hupper, hne, -⟩ := h
    exact ⟨_, _, phrase_call _ _ _, by rwa [hupper]⟩
  obtain h | ⟨⟨frame, hf, -, -⟩⟩ := h
  · exact hcall h
  · obtain ⟨w, tail, htail, hw⟩ := hcall hf
    exact ⟨w, _, by rw [phrase_window, htail, List.cons_append], hw⟩

/-- Whatever is selected starts with a name, a literal or a function, and the first lexeme tells
which. -/
theorem recovers_output : Recovers [.word "OVER"] IsOutput phrase := by
  refine (recovers_star_or_operand.mono nofun).or recovers_call_or_window ?_
  rintro a b r s ha hb - h
  obtain ⟨l, tail, htail, hl⟩ := exists_lead_star_or_operand ha
  obtain ⟨w, tail', htail', -⟩ := exists_word_call_or_window hb
  rw [htail, htail'] at h
  exact hl w (List.cons.inj h).1

theorem exists_lead_output {e : Expr} (h : e.IsOutput) :
    ∃ l tail, e.phrase = l :: tail ∧ l ≠ .word "FROM" := by
  obtain h | h := h
  · obtain ⟨l, tail, htail, hl⟩ := exists_lead_star_or_operand h
    exact ⟨l, tail, htail, hl "FROM"⟩
  · obtain ⟨w, tail, htail, hw⟩ := exists_word_call_or_window h
    exact ⟨_, tail, htail, by simpa using hw⟩

/-! ## Conditions -/

/-- No two comparisons have the same sign. -/
theorem comparisonText_injective : Function.Injective comparisonText := by
  intro c c'
  cases c <;> cases c' <;> decide

theorem phrase_compare (c : Comparison) (left right : Expr) :
    (compare c left right).phrase =
      left.phrase ++ .symbol (comparisonText c) :: right.phrase := by
  simp [compare, phrase, tokens, Operator.token]

theorem phrase_and (left right : Expr) :
    (and left right).phrase = left.phrase ++ .word "AND" :: right.phrase := by
  simp [and, phrase, tokens, Operator.token, Keyword.words, Keyword.text]

/-- Both operands are recovered, and the sign between them. -/
theorem recovers_comparison {c c' : Comparison} {left left' right right' : Expr} {r s : List Lexeme}
    (hl : left.IsOperand) (hl' : left'.IsOperand) (hr : right.IsOperand) (hr' : right'.IsOperand)
    (h : (compare c left right).phrase ++ r = (compare c' left' right').phrase ++ s) :
    compare c left right = compare c' left' right' ∧ r = s := by
  simp only [phrase_compare, List.append_assoc, List.cons_append] at h
  obtain ⟨rfl, hcomparison⟩ := recovers_operand hl hl' nofun nofun h
  obtain ⟨hc, hright⟩ := List.cons.inj hcomparison
  obtain rfl := comparisonText_injective (Lexeme.symbol.inj hc)
  obtain ⟨rfl, rfl⟩ := recovers_operand hr hr' nofun nofun hright
  exact ⟨rfl, rfl⟩

/-- **A condition is recovered without parentheses**, up to where no further comparison is added. -/
theorem recovers_condition : Recovers [.word "AND"] IsCondition phrase := by
  intro e e' r s he
  induction he generalizing e' with
  | compare c hl hright =>
    rintro (⟨c', hl', hright'⟩ | ⟨c', hl', hright', -⟩) hr hs h
    · exact recovers_comparison hl hl' hright hright' h
    · rw [phrase_and, List.append_assoc] at h
      obtain ⟨-, hand⟩ := recovers_comparison hl hl' hright hright' h
      exact absurd hand (hr.ne_cons List.mem_cons_self)
  | and c hl hright _ ih =>
    rintro (⟨c', hl', hright'⟩ | ⟨c', hl', hright', he'⟩) hr hs h
    · rw [phrase_and, List.append_assoc] at h
      obtain ⟨-, hand⟩ := recovers_comparison hl hl' hright hright' h
      exact absurd hand.symm (hs.ne_cons List.mem_cons_self)
    · rw [phrase_and, phrase_and, List.append_assoc, List.append_assoc] at h
      obtain ⟨hfirst, hand⟩ := recovers_comparison hl hl' hright hright' h
      obtain ⟨rfl, rfl⟩ := ih he' hr hs (List.cons.inj hand).2
      exact ⟨congrArg (Expr.and · _) hfirst, rfl⟩

end Expr

/-! ## Items, tables and joins -/

theorem recovers_name : Recovers [] (fun _ : String => True) fun name => [.name name] := by
  rintro name name' r s - - - - h
  simpa using h

theorem lexemes_labelTokens (label : Option String) :
    lexemes (labelTokens label) = optional (.word "AS") [] (fun name => [.name name]) label := by
  cases label <;> simp [labelTokens, optional, Keyword.words, Keyword.text]

theorem recovers_label : Recovers [.word "AS"] (fun _ : Option String => True)
    fun label => lexemes (labelTokens label) := by
  intro label label' r s _ _ hr hs h
  simp only [lexemes_labelTokens] at h
  exact recovers_name.optional _ _ (fun _ _ => trivial) (fun _ _ => trivial) hr hs h

theorem avoids_label {ls rest : List Lexeme} (hl : .word "AS" ∉ ls) (h : Avoids ls rest)
    (label : Option String) : Avoids ls (lexemes (labelTokens label) ++ rest) := by
  rw [lexemes_labelTokens]
  exact avoids_optional hl h

theorem phrase_item (item : SelectItem) :
    item.phrase = item.expr.phrase ++ lexemes (labelTokens item.label) := lexemes_append _ _

/-- What stands behind the expression of an item tells whether it has a label. -/
theorem recovers_item : Recovers [.word "AS", .word "OVER"]
    (fun item : SelectItem => item.expr.IsOutput) SelectItem.phrase := by
  rintro ⟨e, label⟩ ⟨e', label'⟩ r s he he' hr hs h
  simp only [phrase_item, List.append_assoc] at h
  obtain ⟨rfl, hlabel⟩ := Expr.recovers_output he he'
    (avoids_label (by decide) (hr.mono (by simp)) label)
    (avoids_label (by decide) (hs.mono (by simp)) label') h
  obtain ⟨rfl, rfl⟩ := recovers_label trivial trivial (hr.mono (by simp)) (hs.mono (by simp)) hlabel
  exact ⟨rfl, rfl⟩

theorem lexemes_qualified (parts : List String) (ts : List Token) :
    lexemes (.qualified parts :: ts) =
      listed (.symbol ".") (fun name => [.name name]) parts ++ lexemes ts := by
  have hparts : (parts.map Lexeme.name).intersperse (.symbol ".") =
      listed (.symbol ".") (fun name => [.name name]) parts := by
    induction parts with
    | nil => rfl
    | cons part parts ih =>
      cases parts with
      | nil => rfl
      | cons next parts => simpa [listed] using ih
  exact congrArg (· ++ lexemes ts) hparts

/-- A table goes on with a further part behind a full stop and with its label behind `AS`. -/
theorem recovers_table : Recovers [.symbol ".", .word "AS"]
    (fun table : TableRef => table.parts ≠ []) TableRef.phrase := by
  rintro ⟨parts, label⟩ ⟨parts', label'⟩ r s hp hp' hr hs h
  simp only [TableRef.phrase, TableRef.tokens, lexemes_qualified, List.append_assoc] at h
  obtain ⟨rfl, hlabel⟩ := recovers_name.listed (by simp) ⟨hp, fun _ _ => trivial⟩
    ⟨hp', fun _ _ => trivial⟩ (avoids_label (by decide) (hr.mono (by simp)) label)
    (avoids_label (by decide) (hs.mono (by simp)) label') h
  obtain ⟨rfl, rfl⟩ := recovers_label trivial trivial (hr.mono (by simp)) (hs.mono (by simp)) hlabel
  exact ⟨rfl, rfl⟩

theorem phrase_join (j : Join) : j.phrase = .word j.kind.keyword.text :: .word "JOIN" ::
    (j.table.phrase ++ .word "ON" :: j.condition.phrase) := by
  obtain ⟨kind, table, condition⟩ := j
  cases kind <;> simp [Join.phrase, TableRef.phrase, Expr.phrase, Join.tokens, JoinKind.keyword,
    Keyword.words, Keyword.text]

/-- The last part of a join is its condition, which goes on with `AND`. -/
theorem recovers_join : Recovers [.word "AND"]
    (fun j : Join => j.table.parts ≠ [] ∧ j.condition.IsCondition) Join.phrase := by
  rintro ⟨kind, table, e⟩ ⟨kind', table', e'⟩ r s ⟨htable, he⟩ ⟨htable', he'⟩ hr hs h
  have hkind : Function.Injective fun kind : JoinKind => kind.keyword.text := by
    intro kind kind'
    cases kind <;> cases kind' <;> decide
  simp only [phrase_join, List.cons_append, List.append_assoc, List.cons.injEq, Lexeme.word.injEq,
    true_and] at h
  obtain ⟨hword, hrest⟩ := h
  obtain rfl := hkind hword
  obtain ⟨rfl, hon⟩ := recovers_table htable htable' (avoids_cons.mpr (by decide))
    (avoids_cons.mpr (by decide)) hrest
  obtain ⟨rfl, rfl⟩ := Expr.recovers_condition he he' hr hs (List.cons.inj hon).2
  exact ⟨rfl, rfl⟩

theorem exists_lead_join (j : Join) :
    ∃ l ∈ [.word "INNER", .word "LEFT"], ∃ tail, j.phrase = l :: tail := by
  refine ⟨_, ?_, _, phrase_join j⟩
  cases j.kind <;> decide

theorem avoids_joins {ls rest : List Lexeme} (hl : ∀ l ∈ [.word "INNER", .word "LEFT"], l ∉ ls)
    (h : Avoids ls rest) (js : List Join) : Avoids ls (js.flatMap Join.phrase ++ rest) := by
  refine avoids_flatMap h fun j _ => ?_
  obtain ⟨l, hlead, tail, htail⟩ := exists_lead_join j
  exact ⟨l, tail, htail, hl l hlead⟩

/-- Joins are recovered where no further join and no further condition follows. -/
theorem recovers_joins : Recovers [.word "INNER", .word "LEFT", .word "AND"]
    (fun js : List Join => ∀ j ∈ js, j.table.parts ≠ [] ∧ j.condition.IsCondition)
    (·.flatMap Join.phrase) :=
  recovers_join.many (fun j _ => exists_lead_join j) (by decide)

/-! ## Queries -/

namespace Query

/-- A query that is recovered from its text, but for the named queries in front of it. -/
structure IsPlain (q : Query) : Prop where
  select : ∀ item ∈ q.select, item.expr.IsOutput
  source : ∃ table, q.source = some table ∧ table.parts ≠ []
  joins : ∀ j ∈ q.joins, j.table.parts ≠ [] ∧ j.condition.IsCondition
  condition : ∀ e ∈ q.condition, e.IsCondition
  groups : ∀ e ∈ q.groups, e.IsOperand

theorem lexemes_selectTokens (items : List SelectItem) :
    lexemes (selectTokens items) = listed (.symbol ",") SelectItem.phrase items := by
  refine lexemes_eq_listed rfl (fun _ => rfl) (fun item next rest => ?_) items
  simp [selectTokens]

theorem lexemes_bodyTokens {q : Query} {table : TableRef} (h : q.source = some table) :
    lexemes q.bodyTokens = .word "SELECT" ::
      (listed (.symbol ",") SelectItem.phrase q.select ++ .word "FROM" ::
        (table.phrase ++
          (q.joins.flatMap Join.phrase ++
            (optional (.word "WHERE") [] Expr.phrase q.condition ++
              clause (.word "GROUP") [.word "BY"] (.symbol ",") Expr.phrase q.groups)))) := by
  have hjoins (joins : List Join) : lexemes (joins.flatMap (.newline :: ·.tokens)) =
      joins.flatMap Join.phrase := by
    induction joins with
    | nil => rfl
    | cons j joins ih => simp [ih, Join.phrase]
  obtain ⟨ctes, select, source, joins, condition, groups⟩ := q
  cases h
  cases select <;> cases condition <;> cases groups <;>
    simp [bodyTokens, lexemes_selectTokens, hjoins, Expr.lexemes_exprsTokens, optional, clause,
      Keyword.words, Keyword.text, TableRef.phrase, Expr.phrase]

/-- The lexemes that would go on with a query. -/
def goesOn : List Lexeme :=
  [.symbol ".", .word "AS", .word "INNER", .word "LEFT", .word "AND", .word "WHERE", .word "GROUP",
    .symbol ","]

theorem recovers_body {q q' : Query} {r s : List Lexeme} (h : q.IsPlain) (h' : q'.IsPlain)
    (hctes : q.ctes = q'.ctes) (hr : Avoids goesOn r) (hs : Avoids goesOn s)
    (heq : lexemes q.bodyTokens ++ r = lexemes q'.bodyTokens ++ s) : q = q' ∧ r = s := by
  obtain ⟨table, hsource, htable⟩ := h.source
  obtain ⟨table', hsource', htable'⟩ := h'.source
  rw [lexemes_bodyTokens hsource, lexemes_bodyTokens hsource'] at heq
  simp only [List.cons_append, List.append_assoc, List.cons.injEq, true_and] at heq
  have hlead : ∀ item : SelectItem, item.expr.IsOutput →
      ∃ l tail, item.phrase = l :: tail ∧ l ≠ .word "FROM" := by
    intro item hitem
    obtain ⟨l, tail, htail, hl⟩ := Expr.exists_lead_output hitem
    exact ⟨l, _, by rw [phrase_item, htail, List.cons_append], hl⟩
  -- Whatever parts are missing, what stands behind the joins does not go on with them.
  have hbehind {ls rest : List Lexeme} (hl : ∀ l ∈ [.word "WHERE", .word "GROUP"], l ∉ ls)
      (hrest : Avoids ls rest) (q : Query) :
      Avoids ls (optional (.word "WHERE") [] Expr.phrase q.condition ++
        (clause (.word "GROUP") [.word "BY"] (.symbol ",") Expr.phrase q.groups ++ rest)) :=
    avoids_optional (hl _ (by decide)) (avoids_clause (hl _ (by decide)) hrest)
  obtain ⟨hselect, hfrom⟩ := recovers_item.listed_closed (by decide) (by decide) hlead h.select
    h'.select heq
  obtain ⟨rfl, hrows⟩ := recovers_table htable htable'
    (avoids_joins (by decide) (hbehind (by decide) (hr.mono (by decide)) q) q.joins)
    (avoids_joins (by decide) (hbehind (by decide) (hs.mono (by decide)) q') q'.joins) hfrom
  obtain ⟨hjoins, hwhere⟩ := recovers_joins h.joins h'.joins
    (hbehind (by decide) (hr.mono (by decide)) q)
    (hbehind (by decide) (hs.mono (by decide)) q') hrows
  obtain ⟨hcondition, hgroup⟩ := Expr.recovers_condition.optional _ _ h.condition h'.condition
    (avoids_clause (by decide) (hr.mono (by decide)))
    (avoids_clause (by decide) (hs.mono (by decide))) hwhere
  obtain ⟨hgroups, hrest⟩ := Expr.recovers_operands _ _ h.groups h'.groups (hr.mono (by decide))
    (hs.mono (by decide)) hgroup
  obtain ⟨ctes, select, source, joins, condition, groups⟩ := q
  obtain ⟨ctes', select', source', joins', condition', groups'⟩ := q'
  cases hctes
  cases hselect
  cases hsource
  cases hsource'
  cases hjoins
  cases hcondition
  cases hgroups
  exact ⟨rfl, hrest⟩

/-- A named query. -/
def ctePhrase (c : String × Query) : List Lexeme :=
  .name c.1 :: .word "AS" :: .symbol "(" :: (lexemes c.2.tokens ++ [.symbol ")"])

theorem lexemes_cteTokens (ctes : List (String × Query)) :
    lexemes (cteTokens ctes) = listed (.symbol ",") ctePhrase ctes := by
  refine lexemes_eq_listed ?_ ?_ ?_ ctes
  · rw [cteTokens, lexemes_nil]
  · exact fun c => by simp [cteTokens, ctePhrase, Keyword.words, Keyword.text]
  · exact fun c next rest => by simp [cteTokens, ctePhrase, Keyword.words, Keyword.text]

/-- The named queries stand in front, each in brackets, and are left out where there are none. -/
theorem lexemes_tokens (q : Query) : lexemes q.tokens =
    clause (.word "WITH") [] (.symbol ",") ctePhrase q.ctes ++ lexemes q.bodyTokens := by
  obtain ⟨ctes, select, source, joins, condition, groups⟩ := q
  cases ctes with
  | nil => rw [tokens]; rfl
  | cons c ctes =>
    rw [tokens]
    simp [lexemes_cteTokens, clause, Keyword.words, Keyword.text, bodyTokens]

/-- A query that is recovered from its text: none of its named queries names others. -/
structure IsRecoverable (q : Query) : Prop where
  plain : q.IsPlain
  ctes : ∀ c ∈ q.ctes, c.2.ctes = [] ∧ c.2.IsPlain

/-- A named query is closed by its bracket, so nothing is asked of what follows. -/
theorem recovers_cte :
    Recovers [] (fun c : String × Query => c.2.ctes = [] ∧ c.2.IsPlain) ctePhrase := by
  rintro ⟨name, q⟩ ⟨name', q'⟩ r s ⟨hctes, h⟩ ⟨hctes', h'⟩ - - heq
  have hbody {q : Query} (h : q.ctes = []) : lexemes q.tokens = lexemes q.bodyTokens := by
    rw [lexemes_tokens, h]
    rfl
  simp only [ctePhrase, hbody hctes, hbody hctes', List.cons_append, List.append_assoc,
    List.cons.injEq, Lexeme.name.injEq, true_and] at heq
  obtain ⟨rfl, hquery⟩ := heq
  obtain ⟨rfl, hrest⟩ := recovers_body h h' (hctes.trans hctes'.symm)
    (avoids_cons.mpr (by decide)) (avoids_cons.mpr (by decide)) hquery
  exact ⟨rfl, (List.cons.inj hrest).2⟩

/-- **A query is recovered from what its text reads as.** -/
theorem eq_of_lexemes_eq {q q' : Query} (h : q.IsRecoverable) (h' : q'.IsRecoverable)
    (heq : lexemes q.tokens = lexemes q'.tokens) : q = q' := by
  have hbody {q : Query} (h : q.IsPlain) :
      Avoids [.word "WITH", .symbol ","] (lexemes q.bodyTokens) := by
    obtain ⟨table, hsource, -⟩ := h.source
    rw [lexemes_bodyTokens hsource]
    exact avoids_cons.mpr (by decide)
  rw [lexemes_tokens, lexemes_tokens] at heq
  obtain ⟨hctes, hrest⟩ := recovers_cte.clause (by simp) _ _ h.ctes h'.ctes (hbody h.plain)
    (hbody h'.plain) heq
  exact (recovers_body h.plain h'.plain hctes (avoids_nil _) (avoids_nil _)
    (congrArg (· ++ []) hrest)).1

end Query

end Sql

end EventQuery
