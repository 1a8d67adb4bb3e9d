import EventQuery.Proofs.Query.Places
import Mathlib.Computability.Language

/-! One token of look-ahead. A reading of tokens among which no list of entities starts reads a
phrase of the grammar, or is stuck behind the start of one; and it is decided by the tokens that it
reads and the one behind them, so that it is stuck at that one whatever follows. -/

namespace EventQuery.Parser

open Grammar Outcome

/-! ## Readings of phrases -/

/-- An outcome leaves tokens behind, or is stuck in front of them. -/
class Leaves (ω : Type) where
  rest : ω → Rest
  put : Rest → ω → ω
  put_rest : ∀ x, put (rest x) x = x

namespace Leaves

instance : Leaves Rest := ⟨id, fun s _ => s, fun _ => rfl⟩

instance : Leaves Progress := ⟨(·.rest), fun s p => ⟨s, p.unknown⟩, fun _ => rfl⟩

/-- At the end of all tokens only names are given. -/
instance : Leaves (List Name) := ⟨fun _ => [], fun _ x => x, fun _ => rfl⟩

instance {α ω : Type} [Leaves ω] : Leaves (α × ω) where
  rest x := rest x.2
  put s x := (x.1, put s x.2)
  put_rest x := by rw [put_rest]

instance {ε α : Type} [Leaves ε] [Leaves α] : Leaves (Except ε α) where
  rest
    | .error e => rest e
    | .ok x => rest x
  put s := both (put s) (put s)
  put_rest x := by cases x <;> exact congrArg _ (put_rest _)

end Leaves

open Leaves

/-- The tokens of the trees of a kind. -/
def phrases {τ : Type} (lexemes : τ → List Lexeme) : Language Lexeme := Set.range lexemes

/-- There is a phrase. -/
class HasPhrase (T : Language Lexeme) : Prop where
  exists_mem : ∃ w, w ∈ T

namespace HasPhrase

instance {τ : Type} [Inhabited τ] (lexemes : τ → List Lexeme) : HasPhrase (phrases lexemes) :=
  ⟨_, default, rfl⟩

instance : HasPhrase 1 := ⟨[], rfl⟩

instance (T U : Language Lexeme) [h : HasPhrase T] [h' : HasPhrase U] : HasPhrase (T * U) := by
  obtain ⟨w, hw⟩ := h
  obtain ⟨w', hw'⟩ := h'
  exact ⟨w ++ w', Language.append_mem_mul hw hw'⟩

/-- Nothing is the start of a phrase. -/
theorem nil_prefix (T : Language Lexeme) [h : HasPhrase T] : ∃ w ∈ T, [] <+: w := by
  obtain ⟨w, hw⟩ := h
  exact ⟨w, hw, List.nil_prefix⟩

end HasPhrase

section
variable {ε ε' α β : Type} {T U : Language Lexeme}

/-- A result comes from a phrase, and where there is none a phrase can be completed. -/
def IsRead (T : Language Lexeme) (c : Rest) : Except ε α → Prop
  | .ok _ => c ∈ T
  | .error _ => ∃ w ∈ T, c <+: w

theorem IsRead.append {c : Rest} {y : Except ε α} (h : IsRead T c y) (before : Rest)
    (hT : ∀ w ∈ T, before ++ w ∈ U) : IsRead U (before ++ c) y := by
  cases y with
  | ok x => exact hT c h
  | error e =>
    obtain ⟨w, hw, hprefix⟩ := h
    exact ⟨before ++ w, hT w hw, (List.prefix_append_right_inj before).mpr hprefix⟩

variable [Leaves ε] [Leaves ε'] [Leaves α] [Leaves β]

/-- What the reading gives depends on the tokens `c` that it reads, which belong to a phrase, and
on the first one that it leaves. -/
def ReadsAs (T : Language Lexeme) (f : Rest → Except ε α) (r : Rest) (y : Except ε α) : Prop :=
  ∃ c, r = c ++ rest y ∧ IsRead T c y ∧
    ∀ l tail tail', rest y = l :: tail → f (c ++ l :: tail') = put (l :: tail') y

def Reads (T : Language Lexeme) (f : Rest → Except ε α) (r : Rest) : Prop := ReadsAs T f r (f r)

theorem ReadsAs.reads {f : Rest → Except ε α} {r : Rest} {y : Except ε α} (h : ReadsAs T f r y)
    (hy : f r = y) : Reads T f r := by
  subst hy
  exact h

theorem Reads.mono {f : Rest → Except ε α} {r : Rest} (h : Reads T f r)
    (hT : ∀ w ∈ T, w ∈ U) : Reads U f r := by
  obtain ⟨c, hr, hc, hf⟩ := h
  exact ⟨c, hr, hc.append [] hT, hf⟩

/-- Nothing is read, and the first token alone decides. -/
theorem Reads.head {f : Rest → Except ε α} {l : Lexeme} {tail : Rest} {y : Except ε α}
    (hy : rest y = l :: tail) (hread : IsRead T [] y)
    (hf : ∀ tail', f (l :: tail') = put (l :: tail') y) : Reads T f (l :: tail) := by
  refine ReadsAs.reads (y := y) ⟨[], hy.symm, hread, fun l' more tail' hcons => ?_⟩
    (by rw [hf, ← hy, put_rest])
  rw [hy] at hcons
  cases hcons
  exact hf tail'

/-- At the end of the tokens nothing is left to decide. -/
theorem Reads.nil {f : Rest → Except ε α} (hrest : rest (f []) = []) (hread : IsRead T [] (f [])) :
    Reads T f [] := by
  refine ⟨[], hrest.symm, hread, fun l tail tail' hcons => ?_⟩
  rw [hrest] at hcons
  cases hcons

/-- A token in front that the reading takes anyway is part of the phrase. -/
theorem Reads.cons {f g : Rest → Except ε α} {l : Lexeme} {r : Rest} (h : Reads T g r)
    (hf : ∀ r, f (l :: r) = g r) (hT : ∀ w ∈ T, l :: w ∈ U) : Reads U f (l :: r) := by
  obtain ⟨c, hr, hc, hg⟩ := h
  refine ReadsAs.reads (y := g r) ⟨l :: c, congrArg (l :: ·) hr, hc.append [l] hT, ?_⟩
    (hf r)
  exact fun l' tail tail' hcons => (hf _).trans (hg l' tail tail' hcons)

/-- Readings of anything that starts with the same token. -/
theorem Reads.congr {f g : Rest → Except ε α} {l : Lexeme} {r : Rest} (h : Reads T g (l :: r))
    (hf : ∀ r, f (l :: r) = g (l :: r)) : Reads T f (l :: r) := by
  obtain ⟨c, hr, hc, hg⟩ := h
  refine ReadsAs.reads (y := g (l :: r)) ⟨c, hr, hc, fun l' tail tail' hcons => ?_⟩ (hf r)
  rw [← hg l' tail tail' hcons]
  rw [hcons] at hr
  cases c with
  | nil =>
    cases hr
    exact hf tail'
  | cons l' c =>
    cases hr
    exact hf _

/-- A change of the outcome that leaves the same tokens. -/
structure KeepsRest (m : α → β) : Prop where
  rest : ∀ x, rest (m x) = rest x
  put : ∀ s x, put s (m x) = m (put s x)

theorem keepsRest_id : KeepsRest (id : α → α) := ⟨fun _ => rfl, fun _ _ => rfl⟩

/-- What is made of the outcome does not matter, as long as it keeps the tokens left. -/
theorem Reads.both {f : Rest → Except ε α} {m : ε → ε'} {g : α → β} {r : Rest} (h : Reads T f r)
    (hm : KeepsRest m) (hg : KeepsRest g) : Reads T (fun r => both m g (f r)) r := by
  obtain ⟨c, hr, hc, hf⟩ := h
  cases hy : f r with
  | error e =>
    rw [hy] at hr hc hf
    have hrest : r = c ++ rest (m e) := hr.trans (congrArg (c ++ ·) (hm.rest e).symm)
    refine ReadsAs.reads (y := .error (m e)) ⟨c, hrest, hc, ?_⟩ (by rw [hy]; rfl)
    intro l tail tail' hcons
    dsimp only
    rw [hf l tail tail' ((hm.rest e).symm.trans hcons)]
    exact congrArg Except.error (hm.put _ e).symm
  | ok x =>
    rw [hy] at hr hc hf
    have hrest : r = c ++ rest (g x) := hr.trans (congrArg (c ++ ·) (hg.rest x).symm)
    refine ReadsAs.reads (y := .ok (g x)) ⟨c, hrest, hc, ?_⟩ (by rw [hy]; rfl)
    intro l tail tail' hcons
    dsimp only
    rw [hf l tail tail' ((hg.rest x).symm.trans hcons)]
    exact congrArg Except.ok (hg.put _ x).symm

theorem Reads.mapError {f : Rest → Except ε α} {m : ε → ε'} {r : Rest} (h : Reads T f r)
    (hm : KeepsRest m) : Reads T (fun r => (f r).mapError m) r := by
  have hboth : (fun r => (f r).mapError m) = fun r => Outcome.both m id (f r) :=
    funext fun r => by cases f r <;> rfl
  rw [hboth]
  exact h.both hm keepsRest_id

/-- A phrase of each of two kinds, one behind the other. -/
theorem Reads.bind {f : Rest → Except ε α} {k : α → Except ε β} {r : Rest} (hf : Reads T f r)
    [hU : HasPhrase U]
    (hk : ∀ x, f r = .ok x → rest x <:+ r → Reads U (fun s => k (put s x)) (rest x)) :
    Reads (T * U) (fun r => f r >>= k) r := by
  obtain ⟨c, hr, hc, hf⟩ := hf
  cases hfr : f r with
  | error e =>
    rw [hfr] at hr hc hf
    obtain ⟨w, hw, hprefix⟩ := hc
    obtain ⟨w', hw'⟩ := hU
    refine ReadsAs.reads (y := .error e) ⟨c, hr, ?_, fun l tail tail' hcons => ?_⟩
      (by rw [hfr]; rfl)
    · exact ⟨w ++ w', Language.append_mem_mul hw hw', hprefix.trans (List.prefix_append w w')⟩
    · dsimp only
      rw [hf l tail tail' hcons]
      rfl
  | ok x =>
    rw [hfr] at hr hc hf
    obtain ⟨c', hx, hc', hk⟩ := hk x hfr ⟨c, hr.symm⟩
    simp only [put_rest] at hx hc' hk
    refine ReadsAs.reads (y := k x) ⟨c ++ c', ?_, ?_, fun l tail tail' hcons => ?_⟩
      (by rw [hfr]; rfl)
    · rw [List.append_assoc, ← hx]
      exact hr
    · exact hc'.append c fun w hw => Language.append_mem_mul hc hw
    · rw [hcons] at hx
      -- Where the second reading takes nothing, the same token decides for both.
      have hfirst : f (c ++ (c' ++ l :: tail')) = .ok (put (c' ++ l :: tail') x) := by
        cases c' with
        | nil => exact hf l tail tail' hx
        | cons l' c' => exact hf l' _ _ hx
      dsimp only
      rw [List.append_assoc, hfirst]
      exact hk l tail tail' hcons

/-- Nothing more is read. -/
theorem Reads.pure {g : Rest → α} (hrest : ∀ s, rest (g s) = s) (hput : ∀ s s', g s' = put s' (g s))
    (r : Rest) : Reads 1 (fun s => (.ok (g s) : Except ε α)) r :=
  ⟨[], (hrest r).symm, Language.mem_one [] |>.mpr rfl, fun _ _ _ _ => congrArg Except.ok (hput r _)⟩

end

/-! ## Single tokens -/

/-- One token is read, of a kind that the reading looks for. -/
structure Single {τ α : Type} (lexeme : τ → Lexeme) (f : Rest → Except Rest (α × Rest)) : Prop where
  nil : f [] = .error []
  cons : ∀ l, (∀ tail, f (l :: tail) = .error (l :: tail)) ∨
    ∃ t x, l = lexeme t ∧ ∀ tail, f (l :: tail) = .ok (x, tail)

/-- The phrases of one token. -/
abbrev single {τ : Type} (lexeme : τ → Lexeme) : Language Lexeme := phrases fun t => [lexeme t]

/-- A reading of one token is stuck at a token of another kind, or past the end. -/
theorem Single.reads {τ α : Type} [Inhabited τ] {lexeme : τ → Lexeme}
    {f : Rest → Except Rest (α × Rest)} (h : Single lexeme f) (r : Rest) :
    Reads (single lexeme) f r := by
  have hstart := HasPhrase.nil_prefix (single lexeme)
  cases r with
  | nil => exact .nil (by rw [h.nil]; rfl) (by rw [h.nil]; exact hstart)
  | cons l tail =>
    rcases h.cons l with h | ⟨t, x, rfl, h⟩
    · exact .head (y := .error (l :: tail)) rfl hstart h
    · refine .cons (.pure (fun _ => rfl) (fun _ _ => rfl) tail) h ?_
      rintro w hw
      rw [(Language.mem_one w).mp hw]
      exact ⟨t, rfl⟩

instance : Inhabited ByteRange := ⟨⟨0, 0⟩⟩

instance : Inhabited Name := ⟨⟨"x", default⟩⟩

instance : Inhabited (Located ByteRange Qualifier) := ⟨⟨.before, default⟩⟩

instance : Inhabited (Located ByteRange Comparison) := ⟨⟨.eq, default⟩⟩

instance : Inhabited LiteralTree := ⟨.quoted "" default⟩

instance : Inhabited EventTree := ⟨.omitted default⟩

theorem single_name : Single ident name := by
  refine ⟨rfl, fun l => ?_⟩
  obtain ⟨t, p⟩ := l
  cases t with
  | ident text => exact .inr ⟨⟨text, p⟩, _, rfl, fun _ => rfl⟩
  | _ => exact .inl fun _ => rfl

theorem single_token (t : Token) : Single (Located.mk t) (token t) := by
  refine ⟨rfl, fun l => ?_⟩
  by_cases h : l.value = t
  · exact .inr ⟨l.place, l.place, h ▸ rfl, fun tail => if_pos h⟩
  · exact .inl fun tail => if_neg h

theorem single_qualifier : Single qualifierLexeme qualifier := by
  refine ⟨rfl, fun l => ?_⟩
  obtain ⟨t, p⟩ := l
  cases t with
  | keyword k =>
    cases k with
    | before => exact .inr ⟨⟨.before, p⟩, _, rfl, fun _ => rfl⟩
    | after => exact .inr ⟨⟨.after, p⟩, _, rfl, fun _ => rfl⟩
    | _ => exact .inl fun _ => rfl
  | _ => exact .inl fun _ => rfl

def comparisonLexeme (c : Located ByteRange Comparison) : Lexeme := ⟨.comparison c.value, c.place⟩

theorem single_comparison : Single comparisonLexeme comparison := by
  refine ⟨rfl, fun l => ?_⟩
  obtain ⟨t, p⟩ := l
  cases t with
  | comparison c => exact .inr ⟨⟨c, p⟩, _, rfl, fun _ => rfl⟩
  | _ => exact .inl fun _ => rfl

theorem single_literal : Single LiteralTree.lexeme literal := by
  refine ⟨rfl, fun l => ?_⟩
  obtain ⟨t, p⟩ := l
  cases t with
  | quoted contents => exact .inr ⟨.quoted contents p, _, rfl, fun _ => rfl⟩
  | number numeral => exact .inr ⟨.number numeral p, _, rfl, fun _ => rfl⟩
  | _ => exact .inl fun _ => rfl

/-- The first token tells whether there is a selector. -/
theorem reads_selectedEvent (r : Rest) : Reads (phrases EventTree.lexemes) selectedEvent r := by
  have hname (g : Name → Located ByteRange Selector) (r : Rest) :
      Reads (single ident * 1) (fun r => name r >>= fun x => (.ok ((g x.1, x.1), x.2) :
        Except Rest ((Located ByteRange Selector × Name) × Rest))) r :=
    .bind (single_name.reads r) fun x _ _ => .pure (fun _ => rfl) (fun _ _ => rfl) _
  rw [mul_one] at hname
  cases r with
  | nil => exact .nil rfl (HasPhrase.nil_prefix _)
  | cons l r =>
    obtain ⟨t, p⟩ := l
    have homitted : Reads (phrases EventTree.lexemes) _ (⟨t, p⟩ :: r) :=
      (hname (fun event => ⟨.omitted, event.place.atStart⟩) (⟨t, p⟩ :: r)).mono
        (by rintro _ ⟨n, rfl⟩; exact ⟨EventTree.omitted n, rfl⟩)
    cases t with
    | keyword k =>
      cases k with
      | first =>
        refine .cons (hname (fun _ => ⟨.first, p⟩) r) (fun _ => rfl) ?_
        rintro _ ⟨n, rfl⟩
        exact ⟨EventTree.first p n, rfl⟩
      | last =>
        refine .cons (hname (fun _ => ⟨.last, p⟩) r) (fun _ => rfl) ?_
        rintro _ ⟨n, rfl⟩
        exact ⟨EventTree.last p n, rfl⟩
      | _ => exact homitted.congr fun _ => rfl
    | _ => exact homitted.congr fun _ => rfl

/-! ## Columns -/

instance : Inhabited ColumnTree := ⟨.reference default default default⟩

/-- What stands behind the first name of a column, whatever that is. -/
def columnTail : Language Lexeme := {w | ∀ n, ident n :: w ∈ phrases ColumnTree.lexemes}

instance : HasPhrase columnTail :=
  ⟨[⟨.keyword .asName, default⟩, ident default], fun n => ⟨.reference n default default, rfl⟩⟩

/-- The second token tells a reference from an aggregation. -/
theorem reads_column (r : Rest) : Reads (phrases ColumnTree.lexemes) column r := by
  have hcolumn : Reads (single ident * columnTail) column r := by
    have hstart := HasPhrase.nil_prefix columnTail
    refine .bind (single_name.reads r) fun ⟨first, s⟩ _ _ => ?_
    cases s with
    | nil => exact .nil rfl hstart
    | cons l s =>
      obtain ⟨t, p⟩ := l
      cases t with
      | keyword k =>
        cases k with
        | asName =>
          refine .cons (.bind (single_name.reads s) fun x _ _ =>
            .pure (fun _ => rfl) (fun _ _ => rfl) _) (fun _ => rfl) ?_
          rintro _ ⟨_, ⟨label, rfl⟩, _, rfl, rfl⟩ n
          exact ⟨.reference n p label, rfl⟩
        | _ => exact .head (y := .error _) rfl hstart fun _ => rfl
      | lparen =>
        refine .cons (.bind (U := single (Located.mk .rparen) *
          (single (Located.mk (.keyword .asName)) * (single ident * 1)))
          (single_name.reads s) fun x _ _ => ?_) (fun _ => rfl) ?_
        · refine .bind ((single_token .rparen).reads x.2) fun y _ _ => ?_
          refine .bind ((single_token (.keyword .asName)).reads y.2) fun z _ _ => ?_
          exact .bind (single_name.reads z.2) fun w _ _ => .pure (fun _ => rfl) (fun _ _ => rfl) _
        · rintro _ ⟨_, ⟨argument, rfl⟩, _, ⟨_, ⟨rparen, rfl⟩, _, ⟨_, ⟨word, rfl⟩, _,
            ⟨_, ⟨label, rfl⟩, _, rfl, rfl⟩, rfl⟩, rfl⟩, rfl⟩ n
          exact ⟨.aggregation n p argument rparen word label, rfl⟩
      | _ => exact .head (y := .error _) rfl hstart fun _ => rfl
  refine hcolumn.mono ?_
  rintro _ ⟨_, ⟨n, rfl⟩, w, hw, rfl⟩
  exact hw n

/-- Behind a comma stands another column, or the list ends. -/
def columnsBehind (c : Column ByteRange) (unknown : List Name) :
    Rest → Except Progress (List (Column ByteRange) × Progress)
  | ⟨.ident text, place⟩ :: more =>
    both (·.after unknown) (fun x => (c :: x.1, x.2.after unknown))
      (columns (⟨.ident text, place⟩ :: more))
  | rest => .ok ([c], ⟨rest, unknown⟩)

/-- Behind a column stands a comma, or the list ends. -/
def columnsFrom (x : (Column ByteRange × List Name) × Rest) :
    Except Progress (List (Column ByteRange) × Progress) :=
  match x with
  | ((c, unknown), ⟨.comma, _⟩ :: more) => columnsBehind c unknown more
  | ((c, unknown), rest) => .ok ([c], ⟨rest, unknown⟩)

theorem columns_eq_bind (r : Rest) :
    columns r = (column r).mapError (Progress.mk · []) >>= columnsFrom := by
  rw [columns_eq]
  cases column r with
  | error stuck => rfl
  | ok x =>
    obtain ⟨⟨c, unknown⟩, s⟩ := x
    match s with
    | [] => rfl
    | ⟨t, p⟩ :: s =>
      cases t with
      | comma =>
        match s with
        | [] => rfl
        | ⟨t, p⟩ :: s => cases t <;> rfl
      | _ => rfl

theorem keepsRest_stuck (unknown : List Name) : KeepsRest (Progress.mk · unknown) :=
  ⟨fun _ => rfl, fun _ _ => rfl⟩

instance : Inhabited ColumnsTree := ⟨.last default none⟩

/-- What stands behind the first column of a list, whatever that is. -/
def columnsTail : Language Lexeme :=
  {w | ∀ c : ColumnTree, c.lexemes ++ w ∈ phrases ColumnsTree.lexemes}

theorem nil_mem_columnsTail : [] ∈ columnsTail := fun c => ⟨.last c none, rfl⟩

instance : HasPhrase columnsTail := ⟨[], nil_mem_columnsTail⟩

/-- By strong induction on the tokens, as more columns are read behind a comma only. -/
theorem reads_columns (r : Rest) : Reads (phrases ColumnsTree.lexemes) columns r := by
  induction hlength : r.length using Nat.strongRecOn generalizing r with
  | _ n ih =>
    have hcolumns : Reads (phrases ColumnTree.lexemes * columnsTail) columns r := by
      rw [funext columns_eq_bind]
      refine .bind ((reads_column r).mapError (keepsRest_stuck [])) ?_
      rintro ⟨⟨c, unknown⟩, s⟩ hcolumn -
      have hlt := length_lt_of_column (mapError_eq_ok_iff.mp hcolumn)
      match s with
      | [] => exact .nil rfl nil_mem_columnsTail
      | ⟨t, p⟩ :: s =>
        cases t with
        | comma =>
          -- The list ends with the comma, or goes on behind it.
          match s with
          | [] =>
            refine .cons (g := columnsBehind c unknown) (T := 1) (.nil rfl rfl) (fun _ => rfl) ?_
            rintro _ rfl d
            exact ⟨.last d (some p), rfl⟩
          | ⟨t, q⟩ :: s =>
            cases t with
            | ident text =>
              have hshort : (⟨.ident text, q⟩ :: s : Rest).length < n := by
                rw [← hlength]
                exact Nat.lt_of_succ_lt hlt
              have hmore := ih _ hshort (⟨.ident text, q⟩ :: s) rfl
              refine .cons (g := columnsBehind c unknown) ((hmore.both (m := (·.after unknown))
                (g := fun x => (c :: x.1, x.2.after unknown)) ?_ ?_).congr fun _ => rfl)
                (fun _ => rfl) ?_
              · exact ⟨fun _ => rfl, fun _ _ => rfl⟩
              · exact ⟨fun _ => rfl, fun _ _ => rfl⟩
              · rintro _ ⟨cs, rfl⟩ d
                exact ⟨.more d p cs, rfl⟩
            | _ =>
              refine .cons (g := columnsBehind c unknown) (T := 1)
                (.head (y := .ok ([c], ⟨_, unknown⟩)) rfl rfl fun _ => rfl) (fun _ => rfl) ?_
              rintro _ rfl d
              exact ⟨.last d (some p), rfl⟩
        | _ =>
          exact .head (y := .ok ([c], ⟨_, unknown⟩)) rfl nil_mem_columnsTail fun _ => rfl
    refine hcolumns.mono ?_
    rintro _ ⟨_, ⟨c, rfl⟩, w, hw, rfl⟩
    exact hw c

/-! ## Clauses -/

/-- No list of entities starts among the tokens. -/
def NoEntities (r : Rest) : Prop := ∀ l ∈ r, l.value ≠ .keyword .usingList

theorem NoEntities.of_suffix {s r : Rest} (h : NoEntities r) (hs : s <:+ r) : NoEntities s :=
  fun l hl => h l (hs.subset hl)

/-- A list of entities is excluded: it needs more than one token of look-ahead. -/
theorem reads_joinColumns {r : Rest} (h : NoEntities r) :
    Reads (phrases ColumnsTree.lexemes) joinColumns r := by
  have hplain {r : Rest} (hr : ∀ p more, r ≠ ⟨.keyword .usingList, p⟩ :: more) :
      joinColumns r = both id (fun x => (([], x.1), x.2)) (columns r) := by
    rw [joinColumns.eq_2 _ hr]
    cases columns r <;> rfl
  have hcolumns : Reads (phrases ColumnsTree.lexemes)
      (fun r => both id (fun x => ((([] : List Name), x.1), x.2)) (columns r)) r :=
    (reads_columns r).both keepsRest_id ⟨fun _ => rfl, fun _ _ => rfl⟩
  cases r with
  | nil =>
    have hnil := hplain (r := []) (by simp)
    obtain ⟨c, hc, hread, -⟩ := hcolumns
    obtain ⟨rfl, hrest⟩ := List.append_eq_nil_iff.mp hc.symm
    exact .nil (by rw [hnil]; exact hrest) (by rw [hnil]; exact hread)
  | cons l r =>
    refine hcolumns.congr fun r => hplain ?_
    rintro p more heq
    obtain ⟨rfl, -⟩ := List.cons.inj heq
    exact h _ List.mem_cons_self rfl

theorem reads_filter (r : Rest) : Reads (phrases filterLexemes) filter r := by
  have hnone : [] ∈ phrases filterLexemes := ⟨none, rfl⟩
  cases r with
  | nil => exact .nil rfl hnone
  | cons l r =>
    obtain ⟨t, p⟩ := l
    cases t with
    | keyword k =>
      cases k with
      | filter =>
        refine .cons (.bind (U := single ident * (single comparisonLexeme *
          (single LiteralTree.lexeme * (single (Located.mk .rparen) * 1))))
          ((single_token .lparen).reads r) fun x _ _ => ?_) (fun _ => rfl) ?_
        · refine .bind (single_name.reads x.2) fun y _ _ => ?_
          refine .bind (single_comparison.reads y.2) fun z _ _ => ?_
          refine .bind (single_literal.reads z.2) fun w _ _ => ?_
          exact .bind ((single_token .rparen).reads w.2) fun v _ _ =>
            .pure (fun _ => rfl) (fun _ _ => rfl) _
        · rintro _ ⟨_, ⟨lparen, rfl⟩, _, ⟨_, ⟨column, rfl⟩, _, ⟨_, ⟨comparison, rfl⟩, _,
            ⟨_, ⟨literal, rfl⟩, _, ⟨_, ⟨rparen, rfl⟩, _, rfl, rfl⟩, rfl⟩, rfl⟩, rfl⟩, rfl⟩
          exact ⟨some ⟨p, lparen, column, comparison, literal, rparen⟩, rfl⟩
      | _ => exact .head (y := .ok (none, _)) rfl hnone fun _ => rfl
    | _ => exact .head (y := .ok (none, _)) rfl hnone fun _ => rfl

theorem reads_select (r : Rest) : Reads (phrases SelectTree.lexemes) select r := by
  have hselect : Reads (single (Located.mk (.keyword .select)) * (phrases EventTree.lexemes *
      (single (Located.mk .lparen) * (phrases ColumnsTree.lexemes *
        (single (Located.mk .rparen) * 1))))) select r := by
    refine .bind (((single_token _).reads r).mapError (keepsRest_stuck [])) fun x _ _ => ?_
    refine .bind ((reads_selectedEvent x.2).mapError (keepsRest_stuck [])) fun y _ _ => ?_
    refine .bind (((single_token .lparen).reads y.2).mapError (keepsRest_stuck [])) fun z _ _ => ?_
    refine .bind (reads_columns z.2) fun w _ _ => ?_
    refine .bind (((single_token .rparen).reads w.2.rest).mapError (keepsRest_stuck w.2.unknown))
      fun v _ _ => ?_
    exact .pure (fun _ => rfl) (fun _ _ => rfl) _
  refine hselect.mono ?_
  rintro _ ⟨_, ⟨word, rfl⟩, _, ⟨_, ⟨event, rfl⟩, _, ⟨_, ⟨lparen, rfl⟩, _, ⟨_, ⟨columns, rfl⟩, _,
    ⟨_, ⟨rparen, rfl⟩, _, rfl, rfl⟩, rfl⟩, rfl⟩, rfl⟩, rfl⟩
  exact ⟨⟨word, event, lparen, columns, rparen⟩, by simp [SelectTree.lexemes]⟩

/-- What stands behind the first word of a join. -/
def joinTail (word : ByteRange) : Language Lexeme :=
  {w | ⟨.keyword .join, word⟩ :: w ∈ phrases JoinTree.lexemes}

theorem reads_join (word : ByteRange) {r : Rest} (h : NoEntities r) :
    Reads (joinTail word) (join word) r := by
  have hjoin : Reads (single qualifierLexeme * (phrases EventTree.lexemes *
      (single (Located.mk .lparen) * (phrases ColumnsTree.lexemes *
        (phrases filterLexemes * (single (Located.mk .rparen) * 1)))))) (join word) r := by
    refine .bind (single_qualifier.reads r) fun x _ hx => ?_
    refine .bind (reads_selectedEvent x.2) fun y _ hy => ?_
    refine .bind ((single_token .lparen).reads y.2) fun z _ hz => ?_
    have hrest : NoEntities z.2 := ((h.of_suffix hx).of_suffix hy).of_suffix hz
    refine .bind ((reads_joinColumns hrest).mapError ⟨fun _ => rfl, fun _ _ => rfl⟩)
      fun w _ _ => ?_
    refine .bind (reads_filter w.2.rest) fun v _ _ => ?_
    exact .bind ((single_token .rparen).reads v.2) fun u _ _ =>
      .pure (fun _ => rfl) (fun _ _ => rfl) _
  refine hjoin.mono ?_
  rintro _ ⟨_, ⟨qualifier, rfl⟩, _, ⟨_, ⟨event, rfl⟩, _, ⟨_, ⟨lparen, rfl⟩, _,
    ⟨_, ⟨columns, rfl⟩, _, ⟨_, ⟨filter, rfl⟩, _, ⟨_, ⟨rparen, rfl⟩, _, rfl, rfl⟩, rfl⟩, rfl⟩, rfl⟩,
    rfl⟩, rfl⟩
  exact ⟨⟨word, qualifier, event, lparen, none, columns, filter, rparen⟩,
    by simp [JoinTree.lexemes, usingLexemes]⟩

/-! ## The whole query -/

theorem joins_eq_bind (word : ByteRange) (r : Rest) :
    joins (⟨.keyword .join, word⟩ :: r) =
      (join word r).mapError (Progress.mk · []) >>= fun x =>
        both (·.after x.1.2) (Prod.map (x.1.1 :: ·) (x.1.2 ++ ·)) (joins x.2) := by
  rw [joins_join]
  cases join word r <;> rfl

def joinsLexemes (js : List JoinTree) : List Lexeme := js.flatMap JoinTree.lexemes

/-- By strong induction on the tokens, a join at a time. -/
theorem reads_joins {r : Rest} (h : NoEntities r) : Reads (phrases joinsLexemes) joins r := by
  have hnil : [] ∈ phrases joinsLexemes := ⟨[], rfl⟩
  induction hlength : r.length using Nat.strongRecOn generalizing r with
  | _ n ih =>
    match r with
    | [] => exact .nil (by rw [joins]; rfl) (by rw [joins]; exact hnil)
    | ⟨t, p⟩ :: r =>
      by_cases ht : t = .keyword .join
      · subst ht
        have hr := h.of_suffix (List.suffix_cons _ r)
        refine .cons (T := joinTail p * phrases joinsLexemes) ?_ (joins_eq_bind p) ?_
        · refine .bind ((reads_join p hr).mapError (keepsRest_stuck [])) fun x hx hs => ?_
          have hlt := length_lt_of_join (mapError_eq_ok_iff.mp hx)
          have hshort : x.2.length < n := by
            rw [← hlength, List.length_cons]
            omega
          have hmore := ih _ hshort (hr.of_suffix hs) rfl
          exact hmore.both ⟨fun _ => rfl, fun _ _ => rfl⟩ ⟨fun _ => rfl, fun _ _ => rfl⟩
        · rintro _ ⟨w, ⟨j, hj⟩, _, ⟨js, rfl⟩, rfl⟩
          exact ⟨j :: js, by rw [joinsLexemes, List.flatMap_cons, hj]; rfl⟩
      · refine .head (y := .error ⟨⟨t, p⟩ :: r, []⟩) rfl ⟨[], hnil, List.nil_prefix⟩ fun tail => ?_
        rw [joins.eq_3 (⟨t, p⟩ :: tail) (by simp) fun p more heq =>
          ht (Located.mk.inj (List.cons.inj heq).1).1]
        rfl

/-- **One token decides.** A query without entities that is stuck at a token is stuck there whatever
stands behind that token. -/
theorem reads_query {r : Rest} (h : NoEntities r) : Reads (phrases QueryTree.lexemes) query r := by
  have hquery : Reads (phrases SelectTree.lexemes * (phrases joinsLexemes * 1)) query r := by
    refine .bind (reads_select r) fun x _ hx => ?_
    have hjoins := (reads_joins (h.of_suffix hx)).mapError
      (m := (·.after x.2.unknown)) ⟨fun _ => rfl, fun _ _ => rfl⟩
    exact .bind hjoins fun y _ _ => .nil rfl rfl
  refine hquery.mono ?_
  rintro _ ⟨_, ⟨s, rfl⟩, _, ⟨_, ⟨js, rfl⟩, _, rfl, rfl⟩, rfl⟩
  exact ⟨⟨s, js⟩, by simp [QueryTree.lexemes, joinsLexemes]⟩

end EventQuery.Parser
