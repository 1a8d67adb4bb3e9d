import EventQuery.Proofs.Query.Lookahead

/-! Where reading a query stops. Whatever the tokens are, a reading leaves some of them or is stuck
in front of some of them, and the unknown functions that it keeps are names among them. So a syntax
error stands at a token of the text, or past the last one (`parseLexemes_error_cases`). -/

namespace EventQuery.Parser

open Grammar Outcome

/-- The tokens left and the functions kept are among the tokens. -/
structure Progress.Within (tokens : Rest) (p : Progress) : Prop where
  rest : p.rest ⊆ tokens
  unknown : ∀ f ∈ p.unknown, ident f ∈ tokens

namespace Progress.Within

variable {tokens tokens' : Rest} {p : Progress}

theorem mono (h : p.Within tokens) (hsub : tokens ⊆ tokens') : p.Within tokens' :=
  ⟨fun _ hl => hsub (h.rest hl), fun f hf => hsub (h.unknown f hf)⟩

/-- Functions that were kept earlier may be put in front. -/
theorem after (h : p.Within tokens) {unknown : List Name}
    (hunknown : ∀ f ∈ unknown, ident f ∈ tokens) : (p.after unknown).Within tokens :=
  ⟨h.rest, List.forall_mem_append.mpr ⟨hunknown, h.unknown⟩⟩

end Progress.Within

/-! ## Single readings -/

section
variable {α : Type} {T : Language Lexeme} {f : Rest → Except Rest (α × Rest)} {r : Rest}

theorem Reads.stuck_subset (h : Reads T f r) {s : Rest} (hs : f r = .error s) : s ⊆ r := by
  obtain ⟨c, hr, -⟩ := h
  rw [hs] at hr
  rw [hr]
  exact List.subset_append_right c s

theorem Reads.left_subset (h : Reads T f r) {x : α × Rest} (hx : f r = .ok x) : x.2 ⊆ r := by
  obtain ⟨c, hr, -⟩ := h
  rw [hx] at hr
  rw [hr]
  exact List.subset_append_right c x.2

/-- A single reading keeps no functions itself; those that are kept so far stay the same. -/
theorem Reads.stuck_within (h : Reads T f r) {tokens : Rest} (hr : r ⊆ tokens)
    {unknown : List Name} (hunknown : ∀ g ∈ unknown, ident g ∈ tokens) {p : Progress}
    (hp : (f r).mapError (Progress.mk · unknown) = .error p) : p.Within tokens := by
  obtain ⟨s, hs, rfl⟩ := mapError_eq_error_iff.mp hp
  exact ⟨List.Subset.trans (h.stuck_subset hs) hr, hunknown⟩

end

/-! ## Columns -/

theorem ident_mem_of_column (c : ColumnTree) : ∀ f ∈ c.functions, ident f ∈ c.lexemes := by
  cases c with
  | reference source word label => exact List.forall_mem_nil _
  | aggregation function lparen argument rparen word label =>
    intro f hf
    rw [List.mem_singleton.mp hf]
    exact List.mem_cons_self

theorem ident_mem_of_columns (c : ColumnsTree) : ∀ f ∈ c.functions, ident f ∈ c.lexemes := by
  induction c with
  | last column comma =>
    intro f hf
    exact List.mem_append_left _ (ident_mem_of_column column f hf)
  | more column comma rest ih =>
    refine List.forall_mem_append.mpr ⟨fun f hf => ?_, fun f hf => ?_⟩
    · exact List.mem_append_left _ (ident_mem_of_column column f hf)
    · exact List.mem_append_right _ (List.mem_cons_of_mem _ (ih f hf))

theorem columns_within {r : Rest} {x : List (Column ByteRange) × Progress}
    (h : columns r = .ok x) : x.2.Within r := by
  obtain ⟨c, rfl, -, hunknown⟩ := columns_sound h
  refine ⟨List.subset_append_right _ _, fun f hf => ?_⟩
  rw [hunknown] at hf
  exact List.mem_append_left _ (ident_mem_of_columns c f (List.mem_filter.mp hf).1)

/-- A list of columns is stuck at a token of its own, also behind a comma that goes on with the
list. -/
theorem columns_stuck {r : Rest} {p : Progress} (h : columns r = .error p) : p.Within r := by
  fun_induction columns r generalizing p with
  | case1 r stuck hc =>
    cases h
    exact ⟨(reads_column r).stuck_subset hc, List.forall_mem_nil _⟩
  | case2 r c unknown comma text place more hc _ q hq ih =>
    cases h
    have hleft := (reads_column r).left_subset hc
    obtain ⟨t, ht, hx⟩ := column_eq_ok_iff.mp hc
    obtain ⟨-, rfl⟩ := Prod.mk.inj hx
    refine ((ih hq).mono fun l hl => hleft (List.mem_cons_of_mem _ hl)).after fun f hf => ?_
    -- The function of the column just read is kept in front of those kept behind it.
    rw [ht]
    exact List.mem_append_left _ (ident_mem_of_column t f (List.mem_filter.mp hf).1)
  | case3 => cases h
  | case4 => cases h
  | case5 => cases h

/-- The token behind a name is still one of the tokens. -/
theorem pastName_subset (r : Rest) : pastName r ⊆ r := by
  unfold pastName
  split
  · split
    · exact List.subset_cons_self _ _
    · exact List.Subset.refl _
  · exact List.Subset.refl _

theorem entities_subset (r : Rest) : (entities r).2 ⊆ r := by
  obtain ⟨es, hr, -⟩ := entities_sound r
  intro l hl
  rw [hr]
  exact List.mem_append_right _ hl

/-- A join without a using list, with entities only, or with columns that cannot be read is stuck
inside its brackets. -/
theorem joinColumns_stuck {r : Rest} {p : Progress} (h : joinColumns r = .error p) :
    p.rest ⊆ r := by
  have hcolumns {r s : Rest} {names : List Name} (hs : s ⊆ r)
      (h : (columns s).map (fun x => ((names, x.1), x.2)) = .error p) : p.rest ⊆ r := by
    cases hc : columns s with
    | ok x =>
      rw [hc] at h
      cases h
    | error q =>
      rw [hc] at h
      cases h
      exact fun l hl => hs ((columns_stuck hc).rest hl)
  unfold joinColumns at h
  split at h
  · next word r =>
    have hsub := entities_subset r
    split at h
    · next s hs =>
      cases h
      rw [hs] at hsub
      -- No name of the list is an entity: the reading is stuck at its first name, or behind it.
      exact fun l hl => List.mem_cons_of_mem _ (hsub (pastName_subset s hl))
    · next names s _ hs =>
      rw [hs] at hsub
      have hsub : s ⊆ ⟨.keyword .usingList, word⟩ :: r :=
        fun l hl => List.mem_cons_of_mem _ (hsub hl)
      split at h
      · exact hcolumns hsub h
      · cases h
        exact fun l hl => hsub (pastName_subset s hl)
  · exact hcolumns (List.Subset.refl _) h

/-! ## Clauses -/

theorem select_within {r : Rest} {x : SelectClause ByteRange × Progress} (h : select r = .ok x) :
    x.2.Within r := by
  obtain ⟨s, rfl, -, hunknown⟩ := select_sound h
  refine ⟨List.subset_append_right _ _, fun f hf => ?_⟩
  rw [hunknown] at hf
  have hmem := ident_mem_of_columns s.columns f (List.mem_filter.mp hf).1
  exact List.mem_append_left _ (by simp [SelectTree.lexemes, hmem])

theorem select_stuck {r : Rest} {p : Progress} (h : select r = .error p) : p.Within r := by
  rcases bind_eq_error_iff.mp h with h | ⟨⟨word, r₁⟩, hword, h⟩
  · exact ((single_token _).reads r).stuck_within (List.Subset.refl r) (List.forall_mem_nil _) h
  have h₁ := ((single_token _).reads r).left_subset (mapError_eq_ok_iff.mp hword)
  rcases bind_eq_error_iff.mp h with h | ⟨⟨event, r₂⟩, hevent, h⟩
  · exact (reads_selectedEvent r₁).stuck_within h₁ (List.forall_mem_nil _) h
  have h₂ := List.Subset.trans
    ((reads_selectedEvent r₁).left_subset (mapError_eq_ok_iff.mp hevent)) h₁
  rcases bind_eq_error_iff.mp h with h | ⟨⟨lparen, r₃⟩, hlparen, h⟩
  · exact ((single_token _).reads r₂).stuck_within h₂ (List.forall_mem_nil _) h
  have h₃ := List.Subset.trans
    (((single_token _).reads r₂).left_subset (mapError_eq_ok_iff.mp hlparen)) h₂
  rcases bind_eq_error_iff.mp h with h | ⟨⟨cs, q⟩, hcolumns, h⟩
  · exact (columns_stuck h).mono h₃
  have hwithin := (columns_within hcolumns).mono h₃
  rcases bind_eq_error_iff.mp h with h | ⟨_, _, h⟩
  · exact ((single_token _).reads q.rest).stuck_within hwithin.rest hwithin.unknown h
  · cases h

theorem join_left {word : ByteRange} {r : Rest} {x : (JoinClause ByteRange × List Name) × Rest}
    (h : join word r = .ok x) : (Progress.mk x.2 x.1.2).Within (⟨.keyword .join, word⟩ :: r) := by
  obtain ⟨j, hr, hx⟩ := join_sound h
  rw [hr, hx]
  refine ⟨List.subset_append_right _ _, fun f hf => ?_⟩
  have hmem := ident_mem_of_columns j.columns f (List.mem_filter.mp hf).1
  exact List.mem_append_left _ (by simp [JoinTree.lexemes, hmem])

/-- A join is stuck behind its first word. -/
theorem join_stuck {word : ByteRange} {r s : Rest} (h : join word r = .error s) : s ⊆ r := by
  rcases bind_eq_error_iff.mp h with h | ⟨⟨qualifier, r₁⟩, hqualifier, h⟩
  · exact (single_qualifier.reads r).stuck_subset h
  have h₁ := (single_qualifier.reads r).left_subset hqualifier
  rcases bind_eq_error_iff.mp h with h | ⟨⟨event, r₂⟩, hevent, h⟩
  · exact List.Subset.trans ((reads_selectedEvent r₁).stuck_subset h) h₁
  have h₂ := List.Subset.trans ((reads_selectedEvent r₁).left_subset hevent) h₁
  rcases bind_eq_error_iff.mp h with h | ⟨⟨lparen, r₃⟩, hlparen, h⟩
  · exact List.Subset.trans (((single_token _).reads r₂).stuck_subset h) h₂
  have h₃ := List.Subset.trans (((single_token _).reads r₂).left_subset hlparen) h₂
  rcases bind_eq_error_iff.mp h with h | ⟨⟨⟨names, cs⟩, q⟩, hcolumns, h⟩
  · obtain ⟨q, hq, rfl⟩ := mapError_eq_error_iff.mp h
    exact List.Subset.trans (joinColumns_stuck hq) h₃
  have h₄ : q.rest ⊆ r := by
    obtain ⟨u, c, hr₃, -⟩ := joinColumns_sound (mapError_eq_ok_iff.mp hcolumns)
    intro l hl
    refine h₃ ?_
    rw [hr₃]
    exact List.mem_append_right _ (List.mem_append_right _ hl)
  rcases bind_eq_error_iff.mp h with h | ⟨⟨f, r₅⟩, hfilter, h⟩
  · exact List.Subset.trans ((reads_filter q.rest).stuck_subset h) h₄
  have h₅ := List.Subset.trans ((reads_filter q.rest).left_subset hfilter) h₄
  rcases bind_eq_error_iff.mp h with h | ⟨_, _, h⟩
  · exact List.Subset.trans (((single_token _).reads r₅).stuck_subset h) h₅
  · cases h

/-! ## The whole query -/

theorem joins_stuck {r : Rest} {p : Progress} (h : joins r = .error p) : p.Within r := by
  fun_induction joins r generalizing p with
  | case1 => cases h
  | case2 word r stuck hj =>
    cases h
    exact ⟨fun l hl => List.mem_cons_of_mem _ (join_stuck hj hl), List.forall_mem_nil _⟩
  | case3 word r j unknown r' hj _ q hq ih =>
    cases h
    have hleft := join_left hj
    exact ((ih hq).mono hleft.rest).after hleft.unknown
  | case4 => cases h
  | case5 r =>
    cases h
    exact ⟨List.Subset.refl _, List.forall_mem_nil _⟩

/-- The bound for the whole query, which is that of its select clause or of one of its joins. -/
theorem query_stuck {r : Rest} {p : Progress} (h : query r = .error p) : p.Within r := by
  rcases bind_eq_error_iff.mp h with h | ⟨⟨s, q⟩, hselect, h⟩
  · exact select_stuck h
  have hwithin := select_within hselect
  rcases bind_eq_error_iff.mp h with h | ⟨_, _, h⟩
  · obtain ⟨p, hp, rfl⟩ := mapError_eq_error_iff.mp h
    exact ((joins_stuck hp).mono hwithin.rest).after hwithin.unknown
  · cases h

/-- An unknown function is reported at a name of the text. -/
theorem ident_mem_of_query (t : QueryTree) : ∀ f ∈ t.functions, ident f ∈ t.lexemes := by
  refine List.forall_mem_append.mpr ⟨fun f hf => ?_, fun f hf => ?_⟩
  · have hmem := ident_mem_of_columns t.select.columns f hf
    exact List.mem_append_left _ (by simp [SelectTree.lexemes, hmem])
  · obtain ⟨j, hj, hf⟩ := List.mem_flatMap.mp hf
    have hmem := ident_mem_of_columns j.columns f hf
    exact List.mem_append_right _
      (List.mem_flatMap.mpr ⟨j, hj, by simp [JoinTree.lexemes, hmem]⟩)

/-- A complaint about tokens is at one of them, or it is that they end too early. -/
theorem parseLexemes_error_cases {textEnd : Nat} {lexemes : List Lexeme}
    {e : SyntaxError ByteRange} (h : parseLexemes textEnd lexemes = .error e) :
    (∃ l ∈ lexemes, e.place = l.place ∧ e.value ≠ .unexpected .endOfInput) ∨
      e = complaint textEnd lexemes [] := by
  unfold parseLexemes at h
  split at h
  · cases h
  · next q f fs hquery =>
    cases h
    obtain ⟨t, rfl, hx⟩ := query_eq_ok_iff.mp hquery
    have hf : f ∈ t.functions.filter isUnknown := by
      rw [← (Prod.mk.inj hx).2]
      exact List.mem_cons_self
    exact .inl ⟨ident f, ident_mem_of_query t f (List.mem_filter.mp hf).1, rfl, nofun⟩
  · next stuck f fs hquery =>
    cases h
    exact .inl ⟨ident f, (query_stuck hquery).unknown f List.mem_cons_self, rfl, nofun⟩
  · next stuck hquery =>
    cases h
    cases stuck with
    | nil => exact .inr rfl
    | cons l rest =>
      exact .inl ⟨l, (query_stuck hquery).rest List.mem_cons_self, rfl, nofun⟩

end EventQuery.Parser
