import EventQuery.Proofs.Sql.Rendering

/-! Phrases of lexemes that tell what they were written for. A phrase may reach as far as what
follows lets it, so each rule names the lexemes that would go on with it: a list ends where no mark
follows, and a part that may be missing is there where its first lexeme is. -/

namespace EventQuery.Sql

/-! ## What tokens read as -/

/-- The lexemes that tokens read as. -/
def lexemes (ts : List Token) : List Lexeme := ts.flatMap Token.lexemes

/-- The words of a keyword. -/
def Keyword.words : Keyword → List Lexeme
  | .GROUPBY => [.word "GROUP", .word "BY"]
  | .ORDERBY => [.word "ORDER", .word "BY"]
  | .PARTITIONBY => [.word "PARTITION", .word "BY"]
  | k => [.word k.text]

section
variable (ts us : List Token)

@[simp] theorem lexemes_nil : lexemes [] = [] := rfl

@[simp] theorem lexemes_append : lexemes (ts ++ us) = lexemes ts ++ lexemes us :=
  List.flatMap_append

/-- Some keywords are written in two words. -/
@[simp] theorem lexemes_keyword (k : Keyword) :
    lexemes (.keyword k :: ts) = k.words ++ lexemes ts := by
  have hwords : (Token.keyword k).lexemes = k.words := by cases k <;> decide
  exact congrArg (· ++ lexemes ts) hwords

@[simp] theorem lexemes_comma : lexemes (.comma :: ts) = .symbol "," :: lexemes ts := rfl

@[simp] theorem lexemes_dot : lexemes (.dot :: ts) = .symbol "." :: lexemes ts := rfl

@[simp] theorem lexemes_star : lexemes (.star :: ts) = .symbol "*" :: lexemes ts := rfl

@[simp] theorem lexemes_lparen : lexemes (.lparen :: ts) = .symbol "(" :: lexemes ts := rfl

@[simp] theorem lexemes_rparen : lexemes (.rparen :: ts) = .symbol ")" :: lexemes ts := rfl

@[simp] theorem lexemes_space : lexemes (.space :: ts) = lexemes ts := rfl

@[simp] theorem lexemes_newline : lexemes (.newline :: ts) = lexemes ts := rfl

@[simp] theorem lexemes_indent (depth : Nat) : lexemes (.indent depth :: ts) = lexemes ts := rfl

@[simp] theorem lexemes_ident (name : String) :
    lexemes (.ident name :: ts) = .name name :: lexemes ts := rfl

@[simp] theorem lexemes_comparison (c : Comparison) :
    lexemes (.comparison c :: ts) = .symbol (comparisonText c) :: lexemes ts := rfl

@[simp] theorem lexemes_function (name : String) :
    lexemes (.function name :: ts) = .word (Text.upper name) :: lexemes ts := rfl

end

/-! ## Rules -/

/-- What follows does not start with one of the given lexemes. -/
def Avoids (ls : List Lexeme) (rest : List Lexeme) : Prop := ∀ l ∈ rest.head?, l ∉ ls

theorem avoids_nil (ls : List Lexeme) : Avoids ls [] := nofun

@[simp] theorem avoids_cons {ls : List Lexeme} {l : Lexeme} {rest : List Lexeme} :
    Avoids ls (l :: rest) ↔ l ∉ ls := by
  simp [Avoids]

/-- Fewer lexemes are avoided more easily. -/
theorem Avoids.mono {ls ms rest : List Lexeme} (h : Avoids ls rest) (hm : ∀ l ∈ ms, l ∈ ls) :
    Avoids ms rest := fun l hl hmem => h l hl (hm l hmem)

theorem Avoids.ne_cons {ls rest tail : List Lexeme} {l : Lexeme} (h : Avoids ls rest)
    (hl : l ∈ ls) : rest ≠ l :: tail := by
  rintro rfl
  exact avoids_cons.mp h hl

variable {α : Type} {ls : List Lexeme} {P : α → Prop} {f : α → List Lexeme}

/-- The values of a class are told apart by their phrases, and a phrase ends where it does, in front
of anything that does not start with one of the given lexemes. -/
def Recovers (ls : List Lexeme) (P : α → Prop) (f : α → List Lexeme) : Prop :=
  ∀ ⦃a b : α⦄ ⦃r s : List Lexeme⦄, P a → P b → Avoids ls r → Avoids ls s →
    f a ++ r = f b ++ s → a = b ∧ r = s

/-- A phrase that is recovered under few exclusions is recovered under more. -/
theorem Recovers.mono {ms : List Lexeme} (h : Recovers ls P f) (hm : ∀ l ∈ ls, l ∈ ms) :
    Recovers ms P f := fun _ _ _ _ ha hb hr hs => h ha hb (hr.mono hm) (hs.mono hm)

/-- Two classes whose phrases are never the same. -/
theorem Recovers.or {Q : α → Prop} (h : Recovers ls P f) (h' : Recovers ls Q f)
    (hne : ∀ ⦃a b : α⦄ ⦃r s : List Lexeme⦄, P a → Q b → Avoids ls r → f a ++ r ≠ f b ++ s) :
    Recovers ls (fun a => P a ∨ Q a) f := by
  rintro a b r s (ha | ha) (hb | hb) hr hs heq
  · exact h ha hb hr hs heq
  · exact absurd heq (hne ha hb hr)
  · exact absurd heq.symm (hne hb ha hs)
  · exact h' ha hb hr hs heq

/-- A phrase behind certain lexemes, which may be missing together with them. -/
def optional (lead : Lexeme) (more : List Lexeme) (f : α → List Lexeme) : Option α → List Lexeme
  | none => []
  | some a => lead :: more ++ f a

/-- An optional part is told from its absence by the lexeme that leads it, so this may not
follow. -/
theorem Recovers.optional (h : Recovers ls P f) (lead : Lexeme) (more : List Lexeme) :
    Recovers (lead :: ls) (fun o : Option α => ∀ a ∈ o, P a) (optional lead more f) := by
  intro o p r s ho hp hr hs heq
  match o, p with
  | none, none => exact ⟨rfl, heq⟩
  | none, some b => exact absurd heq (hr.ne_cons List.mem_cons_self)
  | some a, none => exact absurd heq.symm (hs.ne_cons List.mem_cons_self)
  | some a, some b =>
    have hsub : ∀ m ∈ ls, m ∈ lead :: ls := fun _ => List.mem_cons_of_mem lead
    have hphrase : f a ++ r = f b ++ s := by simpa [Sql.optional] using heq
    obtain ⟨rfl, rfl⟩ := h (ho a rfl) (hp b rfl) (hr.mono hsub) (hs.mono hsub) hphrase
    exact ⟨rfl, rfl⟩

/-- A word that may be missing. -/
theorem recovers_flag (l : Lexeme) {p q : Bool} {r s : List Lexeme} (hr : Avoids [l] r)
    (hs : Avoids [l] s)
    (h : (if p then [l] else []) ++ r = (if q then [l] else []) ++ s) : p = q ∧ r = s := by
  match p, q with
  | true, true => exact ⟨rfl, (List.cons.inj h).2⟩
  | false, false => exact ⟨rfl, h⟩
  | true, false => exact absurd h.symm (hs.ne_cons List.mem_cons_self)
  | false, true => exact absurd h (hr.ne_cons List.mem_cons_self)

/-- What stands in front of a text decides, unless nothing does. -/
theorem avoids_flatMap {as : List α} {rest : List Lexeme} (h : Avoids ls rest)
    (hlead : ∀ a ∈ as, ∃ l tail, f a = l :: tail ∧ l ∉ ls) :
    Avoids ls (as.flatMap f ++ rest) := by
  cases as with
  | nil => exact h
  | cons a as =>
    obtain ⟨l, tail, htail, hl⟩ := hlead a List.mem_cons_self
    rw [List.flatMap_cons, htail]
    exact avoids_cons.mpr hl

/-- Phrases one behind the other, each of which starts with one of certain lexemes. -/
theorem Recovers.many (h : Recovers ls P f) {leads : List Lexeme}
    (hlead : ∀ a, P a → ∃ l ∈ leads, ∃ tail, f a = l :: tail) (hls : ∀ l ∈ leads, l ∉ ls) :
    Recovers (leads ++ ls) (fun as : List α => ∀ a ∈ as, P a) (·.flatMap f) := by
  have hnext {as : List α} {r : List Lexeme} (has : ∀ a ∈ as, P a) (hr : Avoids (leads ++ ls) r) :
      Avoids ls (as.flatMap f ++ r) := by
    refine avoids_flatMap (hr.mono fun l => List.mem_append_right leads) fun a ha => ?_
    obtain ⟨l, hl, tail, htail⟩ := hlead a (has a ha)
    exact ⟨l, tail, htail, hls l hl⟩
  have hnone {a : α} {as : List α} {r s : List Lexeme} (ha : P a) (hr : Avoids (leads ++ ls) r) :
      r ≠ (a :: as).flatMap f ++ s := by
    obtain ⟨l, hl, tail, htail⟩ := hlead a ha
    rw [List.flatMap_cons, htail]
    exact hr.ne_cons (List.mem_append_left ls hl)
  intro as
  induction as with
  | nil =>
    intro bs r s _ hbs hr _ heq
    cases bs with
    | nil => exact ⟨rfl, heq⟩
    | cons b bs => exact absurd heq (hnone (hbs b List.mem_cons_self) hr)
  | cons a as ih =>
    intro bs r s hall hall' hr hs heq
    obtain ⟨ha, has⟩ := List.forall_mem_cons.mp hall
    cases bs with
    | nil => exact absurd heq.symm (hnone ha hs)
    | cons b bs =>
      obtain ⟨hb, hbs⟩ := List.forall_mem_cons.mp hall'
      simp only [List.flatMap_cons, List.append_assoc] at heq
      obtain ⟨rfl, hrest⟩ := h ha hb (hnext has hr) (hnext hbs hs) heq
      obtain ⟨rfl, rfl⟩ := ih has hbs hr hs hrest
      exact ⟨rfl, rfl⟩

/-- Phrases with a mark between them. -/
def listed (mark : Lexeme) (f : α → List Lexeme) : List α → List Lexeme
  | [] => []
  | a :: as => f a ++ as.flatMap fun b => mark :: f b

/-- A list that is written with tokens between its members which read as a mark. -/
theorem lexemes_eq_listed {write : List α → List Token} {mark : Lexeme}
    (hnil : lexemes (write []) = []) (hone : ∀ a, lexemes (write [a]) = f a)
    (hmore : ∀ a b as, lexemes (write (a :: b :: as)) = f a ++ mark :: lexemes (write (b :: as)))
    (as : List α) : lexemes (write as) = listed mark f as := by
  induction as with
  | nil => exact hnil
  | cons a as ih =>
    cases as with
    | nil => simp [hone, listed]
    | cons b as => simp [hmore, ih, listed]

/-- A list behind certain lexemes, which are missing where the list is empty. -/
def clause (lead : Lexeme) (more : List Lexeme) (mark : Lexeme) (f : α → List Lexeme) :
    List α → List Lexeme
  | [] => []
  | a :: as => lead :: more ++ listed mark f (a :: as)

section
variable (h : Recovers ls P f) {mark : Lexeme} (hmark : mark ∉ ls)
include h hmark

/-- A list that is not empty goes on with its mark, so this may not follow. -/
theorem Recovers.listed :
    Recovers (mark :: ls) (fun as => as ≠ [] ∧ ∀ a ∈ as, P a) (listed mark f) := by
  have htail : Recovers ls P fun a => mark :: f a := by
    intro a b r s ha hb hr hs heq
    exact h ha hb hr hs (List.cons.inj heq).2
  have hmany := htail.many (fun _ _ => ⟨_, List.mem_singleton_self _, _, rfl⟩)
    (List.forall_mem_singleton.mpr hmark)
  have hnext {as : List α} {r : List Lexeme} (hr : Avoids (mark :: ls) r) :
      Avoids ls ((as.flatMap fun b => mark :: f b) ++ r) :=
    avoids_flatMap (hr.mono fun l => List.mem_cons_of_mem _) fun _ _ => ⟨mark, _, rfl, hmark⟩
  rintro (_ | ⟨a, as⟩) (_ | ⟨b, bs⟩) r s ⟨hne, hall⟩ ⟨hne', hall'⟩ hr hs heq
  · exact absurd rfl hne
  · exact absurd rfl hne
  · exact absurd rfl hne'
  · obtain ⟨ha, has⟩ := List.forall_mem_cons.mp hall
    obtain ⟨hb, hbs⟩ := List.forall_mem_cons.mp hall'
    simp only [Sql.listed, List.append_assoc] at heq
    obtain ⟨rfl, hrest⟩ := h ha hb (hnext hr) (hnext hs) heq
    obtain ⟨rfl, rfl⟩ := hmany has hbs hr hs hrest
    exact ⟨rfl, rfl⟩

/-- A list that may be empty, in front of a lexeme that no member starts with. -/
theorem Recovers.listed_closed {close : Lexeme} (hclose : close ∉ mark :: ls)
    (hlead : ∀ a, P a → ∃ l tail, f a = l :: tail ∧ l ≠ close) {as bs : List α}
    {r s : List Lexeme} (has : ∀ a ∈ as, P a) (hbs : ∀ b ∈ bs, P b)
    (heq : Sql.listed mark f as ++ close :: r = Sql.listed mark f bs ++ close :: s) :
    as = bs ∧ r = s := by
  have hne {a : α} (ha : P a) {as : List α} {r s : List Lexeme} :
      Sql.listed mark f (a :: as) ++ r ≠ close :: s := by
    obtain ⟨l, tail, htail, hl⟩ := hlead a ha
    rw [Sql.listed, htail]
    exact fun heq => hl (List.cons.inj heq).1
  match as, bs with
  | [], [] => exact ⟨rfl, (List.cons.inj heq).2⟩
  | [], b :: bs => exact absurd heq.symm (hne (hbs b List.mem_cons_self))
  | a :: as, [] => exact absurd heq (hne (has a List.mem_cons_self))
  | a :: as, b :: bs =>
    obtain ⟨hlist, hrest⟩ := h.listed hmark ⟨List.cons_ne_nil _ _, has⟩ ⟨List.cons_ne_nil _ _, hbs⟩
      (avoids_cons.mpr hclose) (avoids_cons.mpr hclose) heq
    exact ⟨hlist, (List.cons.inj hrest).2⟩

/-- A clause that may be empty is told by the lexeme that leads it. -/
theorem Recovers.clause (lead : Lexeme) (more : List Lexeme) :
    Recovers (lead :: mark :: ls) (fun as : List α => ∀ a ∈ as, P a) (clause lead more mark f) := by
  intro as bs r s has hbs hr hs heq
  match as, bs with
  | [], [] => exact ⟨rfl, heq⟩
  | [], b :: bs => exact absurd heq (hr.ne_cons List.mem_cons_self)
  | a :: as, [] => exact absurd heq.symm (hs.ne_cons List.mem_cons_self)
  | a :: as, b :: bs =>
    have hsub : ∀ m ∈ mark :: ls, m ∈ lead :: mark :: ls := fun _ => List.mem_cons_of_mem lead
    have hlist : Sql.listed mark f (a :: as) ++ r = Sql.listed mark f (b :: bs) ++ s := by
      simpa [Sql.clause] using heq
    exact h.listed hmark ⟨List.cons_ne_nil _ _, has⟩ ⟨List.cons_ne_nil _ _, hbs⟩ (hr.mono hsub)
      (hs.mono hsub) hlist

end

/-! ## What stands in front of the rest -/

theorem avoids_listed {as : List α} {mark : Lexeme} {rest : List Lexeme} (h : Avoids ls rest)
    (hlead : ∀ a ∈ as, ∃ l tail, f a = l :: tail ∧ l ∉ ls) :
    Avoids ls (listed mark f as ++ rest) := by
  cases as with
  | nil => exact h
  | cons a as =>
    obtain ⟨l, tail, htail, hl⟩ := hlead a List.mem_cons_self
    rw [listed, htail]
    exact avoids_cons.mpr hl

theorem avoids_optional {o : Option α} {lead : Lexeme} {more rest : List Lexeme}
    (hl : lead ∉ ls) (h : Avoids ls rest) : Avoids ls (optional lead more f o ++ rest) := by
  cases o with
  | none => exact h
  | some a => exact avoids_cons.mpr hl

theorem avoids_clause {as : List α} {lead mark : Lexeme} {more rest : List Lexeme}
    (hl : lead ∉ ls) (h : Avoids ls rest) : Avoids ls (clause lead more mark f as ++ rest) := by
  cases as with
  | nil => exact h
  | cons a as => exact avoids_cons.mpr hl

end EventQuery.Sql
