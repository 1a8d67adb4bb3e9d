import EventQuery.Proofs.Sql.Rendering

/-! The tokens of expressions and queries. No token of them runs into the next one, whatever the
expressions are; and they are readable where the names of functions are words, the numbers are
finite and the tables have names. -/

namespace EventQuery.Sql

/-! ## Apart from each other -/

/-- Nothing is asked of what stands behind a token that is closed. -/
theorem separated_cons_iff {t : Token} (h : t.isClosed = true) {ts : List Token} :
    Separated (t :: ts) ↔ Separated ts := by
  refine ⟨List.IsChain.tail, fun hts => ?_⟩
  refine List.isChain_cons.mpr ⟨fun u _ => ?_, hts⟩
  unfold Token.canPrecede
  rw [h, Bool.true_or, Bool.true_or]

/-- Tokens that may follow any others. -/
structure Trails (us : List Token) : Prop where
  separated : Separated us
  head : ∀ u ∈ us.head?, u.isBreak = true

theorem trails_nil : Trails [] := ⟨.nil, nofun⟩

theorem trails_cons {u : Token} (h : u.isBreak = true) {us : List Token}
    (hus : Separated (u :: us)) : Trails (u :: us) :=
  ⟨hus, fun _ hu => Option.some.inj hu ▸ h⟩

/-- Tokens that trail may be put behind any that are separated. -/
theorem separated_append {ts us : List Token} (hts : Separated ts) (hus : Trails us) :
    Separated (ts ++ us) := by
  refine List.isChain_append.mpr ⟨hts, hus.separated, fun t _ u hu => ?_⟩
  unfold Token.canPrecede
  rw [hus.head u hu, Bool.or_true, Bool.true_or]

/-- Two separated lists may be joined at a token that starts with a break. -/
theorem separated_append_cons {u : Token} (h : u.isBreak = true) {ts us : List Token}
    (hts : Separated ts) (hus : Separated (u :: us)) : Separated (ts ++ u :: us) :=
  separated_append hts (trails_cons h hus)

theorem separated_cons_cons {t u : Token} (h : u.isBreak = true) {ts : List Token}
    (hts : Separated (u :: ts)) : Separated (t :: u :: ts) :=
  separated_append_cons h (.singleton t) hts

/-- A token with a space behind it. -/
theorem separated_spaced {t : Token} {ts : List Token} (h : Separated ts) :
    Separated (t :: .space :: ts) :=
  separated_cons_cons rfl ((separated_cons_iff rfl).mpr h)

/-- A qualifier ends in a full stop, which anything may follow. -/
theorem separated_tableTokens (table : Option String) {ts : List Token} (h : Separated ts) :
    Separated (tableTokens table ++ ts) := by
  cases table with
  | none => exact h
  | some table => exact .cons_cons rfl ((separated_cons_iff rfl).mpr h)

/-- A direction brings its own space with it. -/
theorem trails_directionTokens (direction : Option Direction) :
    Trails (directionTokens direction) := by
  cases direction with
  | none => exact trails_nil
  | some direction =>
    cases direction with
    | asc => exact trails_cons rfl ((separated_cons_iff rfl).mpr (.singleton _))
    | desc => exact trails_cons rfl ((separated_cons_iff rfl).mpr (.singleton _))

theorem Frame.separated (f : Frame) : Separated f.tokens := by
  obtain ⟨start, stop⟩ := f
  cases start <;> cases stop <;> decide

theorem separated_parts {parts : List (List Token)} (h : ∀ part ∈ parts, Separated part) :
    Separated (spaced parts) := by
  induction parts with
  | nil => exact .nil
  | cons part parts ih =>
    obtain ⟨hpart, hparts⟩ := List.forall_mem_cons.mp h
    cases parts with
    | nil => exact hpart
    | cons next parts =>
      exact separated_append_cons rfl hpart ((separated_cons_iff rfl).mpr (ih hparts))

mutual

/-- Each token of an expression may directly follow the one before it. -/
theorem Expr.separated : (e : Expr) → Separated e.tokens
  | .column table name => by
    rw [Expr.tokens]
    exact separated_tableTokens table (.singleton _)
  | .star table => by
    rw [Expr.tokens]
    exact separated_tableTokens table (.singleton _)
  | .literal l => by
    rw [Expr.tokens]
    exact .singleton _
  | .binary left op right => by
    rw [Expr.tokens, List.append_assoc]
    refine separated_append_cons rfl left.separated ?_
    exact (separated_cons_iff rfl).mpr (separated_spaced right.separated)
  | .call function args distinct => by
    have hargs : Separated (exprsTokens args ++ [.rparen]) :=
      separated_append_cons rfl (exprs_separated args) (.singleton _)
    rw [Expr.tokens, List.append_assoc, List.append_assoc]
    refine .cons_cons rfl ((separated_cons_iff rfl).mpr ?_)
    cases distinct with
    | false => exact hargs
    | true => exact separated_spaced hargs
  | .window function partition order frame => by
    rw [Expr.tokens, List.append_assoc, List.append_assoc]
    refine separated_append_cons rfl function.separated ?_
    refine (separated_cons_iff rfl).mpr (separated_spaced ((separated_cons_iff rfl).mpr ?_))
    refine separated_append_cons rfl (separated_parts ?_) (.singleton _)
    simp only [List.forall_mem_append]
    refine ⟨⟨?_, ?_⟩, ?_⟩
    · split
      · nofun
      · exact List.forall_mem_singleton.mpr (separated_spaced (exprs_separated partition))
    · split
      · nofun
      · exact List.forall_mem_singleton.mpr (separated_spaced (order_separated order))
    · cases frame with
      | none => nofun
      | some f => exact List.forall_mem_singleton.mpr f.separated

theorem exprs_separated : (es : List Expr) → Separated (exprsTokens es)
  | [] => by
    rw [exprsTokens]
    exact .nil
  | [e] => by
    rw [exprsTokens]
    exact e.separated
  | e :: f :: rest => by
    rw [exprsTokens, List.append_assoc]
    refine separated_append_cons rfl e.separated (separated_spaced ?_)
    exact exprs_separated (f :: rest)

/-- Each expression to order by, with its direction, is closed by a comma. -/
theorem order_separated : (order : List (Expr × Option Direction)) → Separated (orderTokens order)
  | [] => by
    rw [orderTokens]
    exact .nil
  | [(e, direction)] => by
    rw [orderTokens]
    exact separated_append e.separated (trails_directionTokens direction)
  | (e, direction) :: f :: rest => by
    have hfirst := separated_append e.separated (trails_directionTokens direction)
    rw [orderTokens, List.append_assoc]
    exact separated_append_cons rfl hfirst (separated_spaced (order_separated (f :: rest)))

end

theorem trails_labelTokens (label : Option String) : Trails (labelTokens label) := by
  cases label with
  | none => exact trails_nil
  | some label =>
    exact trails_cons rfl ((separated_cons_iff rfl).mpr (separated_spaced (.singleton _)))

theorem SelectItem.separated (item : SelectItem) : Separated item.tokens :=
  separated_append item.expr.separated (trails_labelTokens item.label)

theorem TableRef.separated (table : TableRef) : Separated table.tokens := by
  have hname : Separated [.qualified table.parts] := .singleton _
  exact separated_append hname (trails_labelTokens table.label)

/-- A join is separated whatever its condition is. -/
theorem Join.separated (j : Join) : Separated j.tokens := by
  have htable : Separated (j.table.tokens ++ [.space, .keyword .ON, .space]
      ++ j.condition.tokens) := by
    rw [List.append_assoc]
    refine separated_append_cons rfl j.table.separated ?_
    exact (separated_cons_iff rfl).mpr (separated_spaced j.condition.separated)
  rw [Join.tokens, List.append_assoc, List.append_assoc, ← List.append_assoc j.table.tokens]
  exact separated_spaced (separated_spaced htable)

theorem separated_selectTokens (items : List SelectItem) : Separated (selectTokens items) := by
  induction items with
  | nil => exact .nil
  | cons item items ih =>
    cases items with
    | nil => exact item.separated
    | cons next items =>
      rw [selectTokens, List.append_assoc]
      refine separated_append_cons rfl item.separated ?_
      exact separated_cons_cons rfl ((separated_cons_iff rfl).mpr ((separated_cons_iff rfl).mpr ih))

theorem trails_newline {ts : List Token} (h : Separated ts) : Trails (.newline :: ts) :=
  trails_cons rfl ((separated_cons_iff rfl).mpr h)

/-- Every join starts on a line of its own. -/
theorem trails_joins (joins : List Join) : Trails (joins.flatMap (.newline :: ·.tokens)) := by
  induction joins with
  | nil => exact trails_nil
  | cons j joins ih => exact trails_newline (separated_append j.separated ih)

/-- Every clause of a query starts on a line of its own, so clauses may be left out. -/
theorem Query.bodyTokens_separated (q : Query) : Separated q.bodyTokens := by
  have hselect : Separated (.keyword .SELECT :: (if q.select.isEmpty then []
      else [.newline, .indent 1]) ++ selectTokens q.select) := by
    split
    · next h =>
      rw [List.isEmpty_iff.mp h]
      exact .singleton _
    · exact separated_cons_cons rfl ((separated_cons_iff rfl).mpr
        ((separated_cons_iff rfl).mpr (separated_selectTokens q.select)))
  have hgroups : Trails (if q.groups.isEmpty then []
      else [.newline, .keyword .GROUPBY, .space] ++ exprsTokens q.groups) := by
    split
    · exact trails_nil
    · exact trails_newline (separated_spaced (exprs_separated _))
  refine separated_append (separated_append ?_ ?_) hgroups
  · refine separated_append (separated_append hselect ?_) (trails_joins q.joins)
    cases q.source with
    | none => exact trails_nil
    | some table => exact trails_newline (separated_spaced table.separated)
  · cases q.condition with
    | none => exact trails_nil
    | some e => exact trails_newline (separated_spaced e.separated)

mutual

/-- Each token of a query may directly follow the one before it. -/
theorem Query.separated : (q : Query) → Separated q.tokens
  | ⟨ctes, select, source, joins, condition, groups⟩ => by
    have hbody := Query.bodyTokens_separated ⟨[], select, source, joins, condition, groups⟩
    rw [Query.tokens]
    split
    · exact hbody
    · rw [List.append_assoc, List.append_assoc]
      exact separated_spaced (Query.cteTokens_separated ctes hbody)

/-- Named queries with a query behind them. -/
theorem Query.cteTokens_separated : (ctes : List (String × Query)) → {ts : List Token} →
    Separated ts → Separated (Query.cteTokens ctes ++ ([.newline] ++ ts))
  | [], ts, h => by
    rw [Query.cteTokens]
    exact (separated_cons_iff rfl).mpr h
  | [(name, q)], ts, h => by
    rw [Query.cteTokens, List.append_assoc, List.append_assoc]
    refine separated_spaced (separated_spaced ((separated_cons_iff rfl).mpr
      ((separated_cons_iff rfl).mpr ?_)))
    refine separated_append_cons rfl q.separated ?_
    exact (separated_cons_iff rfl).mpr ((separated_cons_iff rfl).mpr
      ((separated_cons_iff rfl).mpr h))
  | (name, q) :: next :: rest, ts, h => by
    have hrest := Query.cteTokens_separated (next :: rest) h
    rw [Query.cteTokens, List.append_assoc, List.append_assoc, List.append_assoc]
    refine separated_spaced (separated_spaced ((separated_cons_iff rfl).mpr
      ((separated_cons_iff rfl).mpr ?_)))
    refine separated_append_cons rfl q.separated ?_
    exact (separated_cons_iff rfl).mpr ((separated_cons_iff rfl).mpr
      ((separated_cons_iff rfl).mpr ((separated_cons_iff rfl).mpr hrest)))

end

/-! ## Readable -/

/-- Each of the tokens reads back. -/
def Readable (ts : List Token) : Prop := ∀ t ∈ ts, t.IsReadable

@[simp] theorem readable_nil : Readable [] := nofun

@[simp] theorem readable_cons {t : Token} {ts : List Token} :
    Readable (t :: ts) ↔ t.IsReadable ∧ Readable ts := List.forall_mem_cons

@[simp] theorem readable_append {ts us : List Token} :
    Readable (ts ++ us) ↔ Readable ts ∧ Readable us := List.forall_mem_append

@[simp] theorem readable_tableTokens (table : Option String) : Readable (tableTokens table) := by
  cases table <;> simp [tableTokens, Token.IsReadable]

@[simp] theorem readable_directionTokens (direction : Option Direction) :
    Readable (directionTokens direction) := by
  obtain _ | (_ | _) := direction <;> simp [directionTokens, Token.IsReadable]

@[simp] theorem readable_labelTokens (label : Option String) : Readable (labelTokens label) := by
  cases label <;> simp [labelTokens, Token.IsReadable]

theorem Frame.readable (f : Frame) : Readable f.tokens := by
  obtain ⟨_ | _, _ | _⟩ := f <;> simp [Frame.tokens, Bound.tokens, Token.IsReadable]

/-- The space between parts has nothing to be read. -/
theorem readable_spaced {parts : List (List Token)} (h : ∀ part ∈ parts, Readable part) :
    Readable (spaced parts) := by
  induction parts with
  | nil => exact readable_nil
  | cons part parts ih =>
    obtain ⟨hpart, hparts⟩ := List.forall_mem_cons.mp h
    cases parts with
    | nil => exact hpart
    | cons next parts => exact readable_append.mpr ⟨hpart, readable_cons.mpr ⟨trivial, ih hparts⟩⟩

theorem readable_exprsTokens {es : List Expr} (h : ∀ e ∈ es, Readable e.tokens) :
    Readable (exprsTokens es) := by
  induction es with
  | nil => simp [exprsTokens]
  | cons e es ih =>
    obtain ⟨he, hes⟩ := List.forall_mem_cons.mp h
    cases es with
    | nil => simpa [exprsTokens] using he
    | cons f es => simpa [exprsTokens, Token.IsReadable] using ⟨he, ih hes⟩

theorem readable_orderTokens {order : List (Expr × Option Direction)}
    (h : ∀ p ∈ order, Readable p.1.tokens) : Readable (orderTokens order) := by
  induction order with
  | nil => simp [orderTokens]
  | cons p order ih =>
    obtain ⟨hp, horder⟩ := List.forall_mem_cons.mp h
    cases order with
    | nil => simpa [orderTokens] using hp
    | cons r order => simpa [orderTokens, Token.IsReadable] using ⟨hp, ih horder⟩

theorem readable_column (table : Option String) (name : String) :
    Readable (Expr.column table name).tokens := by
  simp [Expr.tokens, Token.IsReadable]

theorem readable_star (table : Option String) : Readable (Expr.star table).tokens := by
  simp [Expr.tokens, Token.IsReadable]

/-- A number has a numeral if it is finite; texts and integers always are. -/
theorem readable_literal {l : Literal} (h : l.isFinite = true) :
    Readable (Expr.literal l).tokens := by
  simpa [Expr.tokens, Token.IsReadable] using h

theorem readable_binary {left right : Expr} {op : Operator} (hl : Readable left.tokens)
    (hr : Readable right.tokens) : Readable (Expr.binary left op right).tokens := by
  cases op <;> simp [Operator.token, Expr.tokens, Token.IsReadable, hl, hr]

/-- The name of a function is not quoted, so it has to be a word. -/
theorem readable_call {function : String} {args : List Expr} {distinct : Bool}
    (hf : Reader.IsWord (Text.upper function).toList) (ha : ∀ e ∈ args, Readable e.tokens) :
    Readable (Expr.call function args distinct).tokens := by
  cases distinct <;> simp [Expr.tokens, Token.IsReadable, hf, readable_exprsTokens ha]

/-- A window adds words and marks to its parts, which need nothing. -/
theorem readable_window {function : Expr} {partition : List Expr}
    {order : List (Expr × Option Direction)} {frame : Option Frame}
    (hf : Readable function.tokens) (hp : ∀ e ∈ partition, Readable e.tokens)
    (ho : ∀ p ∈ order, Readable p.1.tokens) :
    Readable (Expr.window function partition order frame).tokens := by
  simp only [Expr.tokens, readable_append, readable_cons, Token.IsReadable, readable_nil, hf,
    and_true, true_and]
  refine readable_spaced ?_
  simp only [List.forall_mem_append]
  refine ⟨⟨?_, ?_⟩, ?_⟩
  · split
    · exact List.forall_mem_nil _
    · simpa [Token.IsReadable] using readable_exprsTokens hp
  · split
    · exact List.forall_mem_nil _
    · simpa [Token.IsReadable] using readable_orderTokens ho
  · cases frame with
    | none => exact List.forall_mem_nil _
    | some f => exact List.forall_mem_singleton.mpr f.readable

/-- What the parts of a query have to be for its tokens to read back. -/
structure Query.IsReadable (q : Query) : Prop where
  select : ∀ item ∈ q.select, Readable item.expr.tokens
  source : ∀ table ∈ q.source, table.parts ≠ []
  joins : ∀ j ∈ q.joins, j.table.parts ≠ [] ∧ Readable j.condition.tokens
  condition : ∀ e ∈ q.condition, Readable e.tokens
  groups : ∀ e ∈ q.groups, Readable e.tokens

theorem readable_selectTokens {items : List SelectItem}
    (h : ∀ item ∈ items, Readable item.expr.tokens) : Readable (selectTokens items) := by
  induction items with
  | nil => exact readable_nil
  | cons item items ih =>
    obtain ⟨hitem, hitems⟩ := List.forall_mem_cons.mp h
    cases items with
    | nil => simpa [selectTokens, SelectItem.tokens] using hitem
    | cons next items =>
      simpa [selectTokens, SelectItem.tokens, Token.IsReadable] using ⟨hitem, ih hitems⟩

/-- A table without a name would leave nothing to read. -/
theorem TableRef.readable {table : TableRef} (h : table.parts ≠ []) : Readable table.tokens := by
  simpa [TableRef.tokens, Token.IsReadable] using h

/-- The tokens of a query are readable if its expressions are and its tables have names. -/
theorem Query.IsReadable.bodyTokens {q : Query} (h : q.IsReadable) : Readable q.bodyTokens := by
  simp only [Query.bodyTokens, readable_append, readable_cons]
  refine ⟨⟨⟨⟨⟨⟨trivial, ?_⟩, readable_selectTokens h.select⟩, ?_⟩, ?_⟩, ?_⟩, ?_⟩
  · split <;> simp [Token.IsReadable]
  · split
    · next htable => simpa [Token.IsReadable] using TableRef.readable (h.source _ htable)
    · exact readable_nil
  · intro t ht
    obtain ⟨j, hj, ht⟩ := List.mem_flatMap.mp ht
    obtain ⟨htable, hcondition⟩ := h.joins j hj
    have hreadable : Readable (.newline :: j.tokens) := by
      simp [Join.tokens, Token.IsReadable, TableRef.readable htable, hcondition]
    exact hreadable t ht
  · split
    · next hcondition => simpa [Token.IsReadable] using h.condition _ hcondition
    · exact readable_nil
  · split
    · exact readable_nil
    · simpa [Token.IsReadable] using readable_exprsTokens h.groups

theorem Query.readable_cteTokens {ctes : List (String × Query)}
    (h : ∀ c ∈ ctes, Readable c.2.tokens) : Readable (Query.cteTokens ctes) := by
  induction ctes with
  | nil => simp [Query.cteTokens]
  | cons c ctes ih =>
    obtain ⟨hc, hctes⟩ := List.forall_mem_cons.mp h
    cases ctes with
    | nil => simpa [Query.cteTokens, Token.IsReadable] using hc
    | cons next ctes => simpa [Query.cteTokens, Token.IsReadable] using ⟨hc, ih hctes⟩

/-- The tokens of a query read back if those of its named queries do. -/
theorem Query.IsReadable.tokens {q : Query} (h : q.IsReadable)
    (hctes : ∀ c ∈ q.ctes, Readable c.2.tokens) : Readable q.tokens := by
  obtain ⟨ctes, select, source, joins, condition, groups⟩ := q
  have hbody : Readable (Query.bodyTokens ⟨[], select, source, joins, condition, groups⟩) :=
    Query.IsReadable.bodyTokens ⟨h.select, h.source, h.joins, h.condition, h.groups⟩
  rw [Query.tokens]
  split
  · exact hbody
  · simpa [Token.IsReadable] using ⟨Query.readable_cteTokens hctes, hbody⟩

end EventQuery.Sql
