import EventQuery.Proofs.Editor.Scanning
import EventQuery.Proofs.Query.Grammar

/-! The contexts of a text made of clauses, each of them some words, an event and tokens in
brackets. The scan counts brackets and keeps what stands in those of the last clause; complete
clauses leave none open, so at the event of a clause and in its brackets the context is that of the
clause. -/

namespace EventQuery.Editor

open Grammar EventQuery.Parser

/-! ## Taking pieces apart -/

namespace Scanned

theorem append_inv {ls ms : List Lexeme} {ps : List Piece} (h : Scanned (ls ++ ms) ps) :
    ∃ qs rs, ps = qs ++ rs ∧ Scanned ls qs ∧ Scanned ms rs := by
  induction ls generalizing ps with
  | nil => exact ⟨[], ps, rfl, .nil, h⟩
  | cons l ls ih =>
    obtain _ | ⟨hl, hls⟩ := h
    obtain ⟨qs, rs, rfl, hqs, hrs⟩ := ih hls
    exact ⟨_, rs, (List.append_assoc _ _ _).symm, .cons hl hqs, hrs⟩

theorem keyword_inv {k : Keyword} {x : ByteRange} {ls : List Lexeme} {ps : List Piece}
    (h : Scanned (⟨.keyword k, x⟩ :: ls) ps) :
    ∃ chars qs, ps = .word chars :: qs ∧ Keyword.ofWord? chars = some k ∧ Scanned ls qs := by
  obtain _ | ⟨hl, hls⟩ := h
  obtain ⟨hk⟩ := hl
  exact ⟨_, _, rfl, hk, hls⟩

theorem ident_inv {n : Name} {ls : List Lexeme} {ps : List Piece} (h : Scanned (ident n :: ls) ps) :
    ∃ chars qs, ps = .word chars :: qs ∧ Keyword.ofWord? chars = none ∧
      String.ofList chars = n.value ∧ Scanned ls qs := by
  obtain ⟨name, place⟩ := n
  obtain _ | ⟨hl, hls⟩ := h
  generalize ht : (ident ⟨name, place⟩).value = t at hl
  cases hl <;> cases ht
  next hk => exact ⟨_, _, rfl, hk, rfl, hls⟩

theorem lparen_inv {x : ByteRange} {ls : List Lexeme} {ps : List Piece}
    (h : Scanned (⟨.lparen, x⟩ :: ls) ps) : ∃ qs, ps = .opening :: qs ∧ Scanned ls qs := by
  obtain _ | ⟨hl, hls⟩ := h
  cases hl
  exact ⟨_, rfl, hls⟩

theorem rparen_inv {x : ByteRange} {ls : List Lexeme} {ps : List Piece}
    (h : Scanned (⟨.rparen, x⟩ :: ls) ps) : ∃ qs, ps = .closing :: qs ∧ Scanned ls qs := by
  obtain _ | ⟨hl, hls⟩ := h
  cases hl
  exact ⟨_, rfl, hls⟩

end Scanned

/-! ## Brackets -/

/-- The depth of brackets behind a token, if it does not close one that is not open. -/
def bracket (d : Nat) (l : Lexeme) : Option Nat :=
  match l.value with
  | .lparen => some (d + 1)
  | .rparen => if d = 0 then none else some (d - 1)
  | _ => some d

def depthAfter (d : Nat) (ls : List Lexeme) : Option Nat := ls.foldlM bracket d

theorem depthAfter_append (d : Nat) (ls ms : List Lexeme) :
    depthAfter d (ls ++ ms) = (depthAfter d ls).bind (depthAfter · ms) := List.foldlM_append

theorem depthAfter_cons (d : Nat) (l : Lexeme) (ls : List Lexeme) :
    depthAfter d (l :: ls) = (bracket d l).bind (depthAfter · ls) := List.foldlM_cons

/-- Inside a clause pieces other than brackets are only kept. -/
theorem foldl_step_kept {ps : List Piece} (h : ∀ p ∈ ps, p ≠ .opening ∧ p ≠ .closing) (d : Nat)
    (event : Option String) (clause : List Piece) :
    ps.foldl Progress.step ⟨d + 1, event, clause⟩ = ⟨d + 1, event, clause ++ ps⟩ := by
  induction ps generalizing clause with
  | nil => rw [List.append_nil]; rfl
  | cons p ps ih =>
    obtain ⟨⟨hopening, hclosing⟩, hps⟩ := List.forall_mem_cons.mp h
    have hstep : Progress.step ⟨d + 1, event, clause⟩ p = ⟨d + 1, event, clause ++ [p]⟩ := by
      cases p with
      | opening => exact absurd rfl hopening
      | closing => exact absurd rfl hclosing
      | _ => rfl
    rw [List.foldl_cons, hstep, ih hps, List.append_assoc]
    rfl

/-- Inside a clause the scan follows the brackets and keeps all pieces. -/
theorem foldl_step_inside {ls : List Lexeme} {ps : List Piece} (h : Scanned ls ps) {d d' : Nat}
    (hd : depthAfter d ls = some d') (event : Option String) (clause : List Piece) :
    ps.foldl Progress.step ⟨d + 1, event, clause⟩ = ⟨d' + 1, event, clause ++ ps⟩ := by
  induction h generalizing d clause with
  | nil =>
    cases hd
    rw [List.append_nil]
    rfl
  | @cons l ls qs ps hl _ ih =>
    obtain ⟨t, x⟩ := l
    rw [depthAfter_cons] at hd
    rw [List.foldl_append, ← List.append_assoc]
    cases hl with
    | lparen => exact ih hd (clause ++ [.opening])
    | rparen =>
      cases d with
      | zero => cases hd
      | succ d => exact ih hd (clause ++ [.closing])
    | _ =>
      rw [foldl_step_kept (by simp)]
      exact ih hd _

/-! ## Lists of entities -/

/-- A token that may stand in a list of entities. -/
def isListed (l : Lexeme) : Bool :=
  match l.value with
  | .ident _ | .comma => true
  | _ => false

/-- The tokens are `using` and the start of a list of entities. -/
def isEntityList : List Lexeme → Bool
  | ⟨.keyword .usingList, _⟩ :: ls => ls.all isListed
  | _ => false

theorem all_isListed {ls : List Lexeme} {ps : List Piece} (h : Scanned ls ps) :
    ps.all (·.isListed) = ls.all isListed := by
  induction h with
  | nil => rfl
  | @cons l ls qs ps hl _ ih =>
    obtain ⟨t, x⟩ := l
    have hqs : qs.all (·.isListed) = isListed ⟨t, x⟩ := by
      cases hl with
      | keyword h | ident h => simp [Piece.isListed, isListed, h]
      | number | comparison => simp [Piece.isListed, isListed]
      | _ => rfl
    rw [List.all_append, hqs, ih, List.all_cons]

theorem depthAfter_listed {ls : List Lexeme} (h : ls.all isListed = true) (d : Nat) :
    depthAfter d ls = some d := by
  induction ls with
  | nil => rfl
  | cons l ls ih =>
    rw [List.all_cons, Bool.and_eq_true] at h
    have hbracket : bracket d l = some d := by
      obtain ⟨t, x⟩ := l
      cases t with
      | ident | comma => rfl
      | _ => cases h.1
    rw [depthAfter_cons, hbracket]
    exact ih h.2

/-- The scan of a clause is at a list of entities exactly if the tokens are. -/
theorem inUsing_eq {ls : List Lexeme} {ps : List Piece} (h : Scanned ls ps) {d : Nat}
    (hd : depthAfter 0 ls = some d) (event : Option String) :
    Progress.inUsing ⟨d + 1, event, ps⟩ = isEntityList ls := by
  cases h with
  | nil =>
    cases hd
    rfl
  | @cons l ls qs ps hl hls =>
    obtain ⟨t, x⟩ := l
    cases hl with
    | @keyword k chars hk =>
      have hfirst : (Piece.word chars).keyword? = some k := hk
      by_cases hu : k = .usingList
      · subst hu
        have hdepth : ls.all isListed = true → d = 0 := fun hlisted =>
          (Option.some.inj ((depthAfter_listed hlisted 0).symm.trans hd)).symm
        simp only [Progress.inUsing, List.cons_append, List.nil_append, hfirst, all_isListed hls,
          isEntityList]
        cases hlisted : ls.all isListed with
        | false => simp
        | true => simp [hdepth hlisted]
      · have hlist : isEntityList (⟨.keyword k, x⟩ :: ls) = false := by
          cases k with
          | usingList => exact absurd rfl hu
          | _ => rfl
        rw [hlist]
        simp [Progress.inUsing, hfirst, hu]
    | ident hk => simp [Progress.inUsing, Piece.keyword?, hk, isEntityList]
    | number | comparison =>
      simp [Progress.inUsing, List.replicate_succ, Piece.keyword?, isEntityList]
    | _ => simp [Progress.inUsing, Piece.keyword?, isEntityList]

/-- The tokens hold something that no list of entities does. -/
def Marked (ls : List Lexeme) : Prop := ∃ l ∈ ls, l.value = .lparen ∨ l.value = .keyword .asName

theorem Marked.append_left {ls : List Lexeme} (h : Marked ls) (ms : List Lexeme) :
    Marked (ls ++ ms) := by
  obtain ⟨l, hl, hmark⟩ := h
  exact ⟨l, List.mem_append_left ms hl, hmark⟩

theorem Marked.append_right {ls : List Lexeme} (h : Marked ls) (ms : List Lexeme) :
    Marked (ms ++ ls) := by
  obtain ⟨l, hl, hmark⟩ := h
  exact ⟨l, List.mem_append_right ms hl, hmark⟩

theorem isEntityList_of_marked {ls : List Lexeme} (h : Marked ls) : isEntityList ls = false := by
  obtain ⟨l, hl, hmark⟩ := h
  unfold isEntityList
  split
  · next x ls =>
    rcases List.mem_cons.mp hl with rfl | hl
    · rcases hmark with h | h <;> cases h
    · refine List.all_eq_false.mpr ⟨l, hl, ?_⟩
      rcases hmark with h | h <;> simp [isListed, h]
  · rfl

/-! ## Clauses -/

def keywordLexeme (k : Located ByteRange Keyword) : Lexeme := ⟨.keyword k.value, k.place⟩

/-- A clause as the scan sees it: words, an event, and tokens in brackets. -/
structure ClauseTree where
  lead : List (Located ByteRange Keyword)
  header : Located ByteRange Keyword
  event : EventTree
  lparen : ByteRange
  inner : List Lexeme
  rparen : ByteRange
  isHeader : header.value ∈ [.select, .before, .after]
  balanced : depthAfter 0 inner = some 0
  /-- A name does not stand right behind a numeral. -/
  numbers : ∀ before n after, inner = before ++ ident n :: after → ¬EndsInNumber before

namespace ClauseTree

/-- The words in front of the event. -/
def words (c : ClauseTree) : List Lexeme := (c.lead ++ [c.header]).map keywordLexeme

def lexemes (c : ClauseTree) : List Lexeme :=
  c.words ++ (c.event.lexemes ++ ⟨.lparen, c.lparen⟩ :: (c.inner ++ [⟨.rparen, c.rparen⟩]))

end ClauseTree

/-- Words outside of brackets open none. -/
theorem depth_words {ks : List (Located ByteRange Keyword)} {ps : List Piece}
    (h : Scanned (ks.map keywordLexeme) ps) {p : Progress} (hp : p.depth = 0) :
    (ps.foldl Progress.step p).depth = 0 := by
  induction ks generalizing ps p with
  | nil =>
    cases h
    exact hp
  | cons k ks ih =>
    obtain ⟨chars, qs, rfl, -, hqs⟩ := h.keyword_inv
    exact ih hqs hp

/-- The word of a selector, if there is one. -/
def selectorWords : EventTree → List (Located ByteRange Keyword)
  | .first word _ => [⟨.first, word⟩]
  | .last word _ => [⟨.last, word⟩]
  | .omitted _ => []

theorem eventTree_lexemes (e : EventTree) :
    e.lexemes = (selectorWords e).map keywordLexeme ++ [ident e.event] := by
  cases e <;> rfl

/-- The event of a clause is the name in front of its bracket. -/
theorem foldl_step_event {e : EventTree} {x : ByteRange} {ls : List Lexeme} {ps : List Piece}
    (h : Scanned (e.lexemes ++ ⟨.lparen, x⟩ :: ls) ps) {p : Progress} (hp : p.depth = 0) :
    ∃ qs, Scanned ls qs ∧
      ps.foldl Progress.step p = qs.foldl Progress.step ⟨1, some e.event.value, []⟩ := by
  rw [eventTree_lexemes, List.append_assoc] at h
  obtain ⟨ws, rs, rfl, hws, hrs⟩ := h.append_inv
  obtain ⟨chars, rs, rfl, hchars, hname, hrs⟩ := hrs.ident_inv
  obtain ⟨qs, rfl, hqs⟩ := hrs.lparen_inv
  have hdepth := depth_words hws hp
  rw [List.foldl_append]
  generalize ws.foldl Progress.step p = p' at hdepth ⊢
  refine ⟨qs, hqs, ?_⟩
  have hevent : p'.eventAfter chars = some e.event.value := by
    rw [Progress.eventAfter, if_neg (by simp [hdepth]), hchars, ← hname]
  have hword : p'.step (.word chars) = ⟨0, some e.event.value, p'.clause ++ [.word chars]⟩ := by
    rw [Progress.step, hevent, hdepth]
  rw [List.foldl_cons, List.foldl_cons, hword]
  rfl

theorem depth_start : Progress.start.depth = 0 := rfl

namespace ClauseTree

/-- A complete clause closes its brackets. -/
theorem depth_lexemes (c : ClauseTree) {ps : List Piece} (h : Scanned c.lexemes ps) {p : Progress}
    (hp : p.depth = 0) : (ps.foldl Progress.step p).depth = 0 := by
  obtain ⟨ws, rs, rfl, hws, hrs⟩ := h.append_inv
  obtain ⟨qs, hqs, hfold⟩ := foldl_step_event hrs (depth_words hws hp)
  obtain ⟨is, ts, rfl, his, hts⟩ := hqs.append_inv
  obtain ⟨us, rfl, hus⟩ := hts.rparen_inv
  cases hus
  rw [List.foldl_append, hfold, List.foldl_append, foldl_step_inside his c.balanced]
  rfl

theorem depth_clauses {cs : List ClauseTree} {ps : List Piece}
    (h : Scanned (cs.flatMap lexemes) ps) {p : Progress} (hp : p.depth = 0) :
    (ps.foldl Progress.step p).depth = 0 := by
  induction cs generalizing ps p with
  | nil =>
    cases h
    exact hp
  | cons c cs ih =>
    obtain ⟨qs, rs, rfl, hqs, hrs⟩ := h.append_inv
    rw [List.foldl_append]
    exact ih hrs (c.depth_lexemes hqs hp)

/-- In the brackets of a clause. -/
theorem contextAfter_inner (c : ClauseTree) (done : List ClauseTree) {before after : List Lexeme}
    (hinner : c.inner = before ++ after) {ps : List Piece}
    (h : Scanned (done.flatMap lexemes ++
      (c.words ++ (c.event.lexemes ++ ⟨.lparen, c.lparen⟩ :: before))) ps) :
    contextAfter ps = .clause (some c.event.event.value) (isEntityList before) := by
  obtain ⟨ds, rs, rfl, hds, hrs⟩ := h.append_inv
  obtain ⟨ws, rs, rfl, hws, hrs⟩ := hrs.append_inv
  obtain ⟨qs, hqs, hfold⟩ := foldl_step_event hrs (depth_words hws (depth_clauses hds depth_start))
  obtain ⟨d, hd⟩ : ∃ d, depthAfter 0 before = some d := by
    have hbalanced := c.balanced
    rw [hinner, depthAfter_append] at hbalanced
    obtain ⟨d, hd, -⟩ := Option.bind_eq_some_iff.mp hbalanced
    exact ⟨d, hd⟩
  have hprogress : (ds ++ (ws ++ rs)).foldl Progress.step .start =
      ⟨d + 1, some c.event.event.value, qs⟩ := by
    rw [List.foldl_append, List.foldl_append, hfold, foldl_step_inside hqs hd]
    rfl
  have hne : (ds ++ (ws ++ rs)).isEmpty = false := by
    rw [List.isEmpty_eq_false_iff]
    intro hnil
    rw [hnil] at hprogress
    cases hprogress
  rw [contextAfter, hne, hprogress]
  simp [inUsing_eq hqs hd]

theorem contextAfter_outside {ps : List Piece} {p : Piece}
    (h : ((ps ++ [p]).foldl Progress.step .start).depth = 0) : contextAfter (ps ++ [p]) =
      if Editor.isHeader (some p) then .eventName false
      else if isSelector (some p) && Editor.isHeader ps.getLast? then .eventName true
      else .other := by
  have hne : (ps ++ [p]).isEmpty = false := by simp
  simp only [contextAfter, hne, h, List.getLast?_concat, List.dropLast_concat, Nat.lt_irrefl,
    Bool.false_eq_true, if_false]

theorem isHeader_word (c : ClauseTree) {chars : List Char}
    (h : Keyword.ofWord? chars = some c.header.value) :
    Editor.isHeader (some (.word chars)) = true := by
  have hheader := c.isHeader
  simp only [List.mem_cons, List.not_mem_nil, or_false] at hheader
  rcases hheader with hk | hk | hk <;> simp [Editor.isHeader, Piece.keyword?, h, hk]

/-- At the event of a clause. -/
theorem contextAfter_event (c : ClauseTree) (done : List ClauseTree) {ps : List Piece}
    (h : Scanned (done.flatMap lexemes ++
      (c.words ++ (selectorWords c.event).map keywordLexeme)) ps) :
    contextAfter ps = .eventName (c.event.selector.value ≠ .omitted) := by
  obtain ⟨ds, rs, rfl, hds, hrs⟩ := h.append_inv
  obtain ⟨ws, ss, rfl, hws, hss⟩ := hrs.append_inv
  have hdepth : ((ds ++ (ws ++ ss)).foldl Progress.step .start).depth = 0 := by
    rw [List.foldl_append, List.foldl_append]
    exact depth_words hss (depth_words hws (depth_clauses hds depth_start))
  -- The header is the last word in front of the selector.
  rw [words, List.map_append] at hws
  obtain ⟨ls, hs, rfl, -, hhs⟩ := hws.append_inv
  obtain ⟨chars, _, rfl, hchars, ⟨⟩⟩ := hhs.keyword_inv
  have hheader := c.isHeader_word hchars
  have hselected (k : Keyword) (x : ByteRange) (hk : k = .first ∨ k = .last)
      (hss : Scanned [⟨.keyword k, x⟩] ss) :
      contextAfter (ds ++ (ls ++ [.word chars] ++ ss)) = .eventName true := by
    obtain ⟨selector, _, rfl, hselector, ⟨⟩⟩ := hss.keyword_inv
    have hnot : Editor.isHeader (some (.word selector)) = false := by
      rcases hk with rfl | rfl <;> simp [Editor.isHeader, Piece.keyword?, hselector]
    have hsome : isSelector (some (.word selector)) = true := by
      rcases hk with rfl | rfl <;> simp [isSelector, Piece.keyword?, hselector]
    rw [← List.append_assoc] at hdepth ⊢
    rw [contextAfter_outside hdepth, hnot, hsome, ← List.append_assoc, List.getLast?_concat,
      hheader]
    rfl
  cases hevent : c.event with
  | first word event =>
    rw [hevent] at hss
    exact hselected .first word (.inl rfl) hss
  | last word event =>
    rw [hevent] at hss
    exact hselected .last word (.inr rfl) hss
  | omitted event =>
    rw [hevent] at hss
    cases hss
    rw [List.append_nil, ← List.append_assoc] at hdepth ⊢
    rw [contextAfter_outside hdepth, hheader]
    rfl

end ClauseTree

/-! ## Names in the text -/

/-- The context at every offset from the start to the end of a span. -/
def ContextOver (text : List Char) (place : Span) (context : Context) : Prop :=
  ∀ offset, Source.offset text place.start ≤ offset → offset ≤ Source.offset text place.stop →
    contextAt text offset = context

/-- At every offset from the start to the end of a span there is this context, and a part of the
name in front of the offset. -/
def SeenOver (text : List Char) (name : String) (place : Span) (context : Context) : Prop :=
  ∀ offset, Source.offset text place.start ≤ offset → offset ≤ Source.offset text place.stop →
    contextAt text offset = context ∧ (fragmentAt text offset).chars <+: name.toList

theorem SeenOver.contextOver {text : List Char} {name : String} {place : Span} {context : Context}
    (h : SeenOver text name place context) : ContextOver text place context :=
  fun offset hstart hstop => (h offset hstart hstop).1

section
variable {text : List Char} (ha : IsAscii text)
include ha

theorem seenOver_of_lex {before after : List Lexeme} {n : Name} {context : Context}
    (hlex : Source.lex text = .ok (before ++ ident n :: after)) (hnumber : ¬EndsInNumber before)
    (hcontext : ∀ ps, Scanned before ps → contextAfter ps = context) :
    SeenOver text n.value (Source.span text n.place) context := by
  obtain ⟨ps, hps, hat⟩ := exists_scanned_of_lex hlex ha hnumber
  obtain ⟨word, hspelled, htext⟩ := Source.lex_spelled hlex (ident n) (by simp)
  obtain ⟨hstart, hstop⟩ := Source.offset_position_ends htext hspelled.first hspelled.last
  intro offset hle hge
  rw [← hcontext ps hps]
  exact hat offset (hstart.symm.trans_le hle) (hge.trans_eq hstop)

section
variable {c : ClauseTree} {done more : List ClauseTree}
  (hlex : Source.lex text = .ok ((done ++ c :: more).flatMap ClauseTree.lexemes))
include hlex

theorem seenOver_event : SeenOver text c.event.event.value (Source.span text c.event.event.place)
    (.eventName (c.event.selector.value ≠ .omitted)) := by
  have hsplit : (done ++ c :: more).flatMap ClauseTree.lexemes =
      (done.flatMap ClauseTree.lexemes ++ (c.words ++ (selectorWords c.event).map keywordLexeme)) ++
        ident c.event.event :: (⟨.lparen, c.lparen⟩ :: (c.inner ++ [⟨.rparen, c.rparen⟩]) ++
          more.flatMap ClauseTree.lexemes) := by
    simp [ClauseTree.lexemes, eventTree_lexemes]
  rw [hsplit] at hlex
  refine seenOver_of_lex ha hlex (fun hnumber => ?_) fun ps hps => c.contextAfter_event done hps
  rw [ClauseTree.words, List.map_append, List.append_assoc, ← List.append_assoc] at hnumber
  obtain ⟨n, p, hlast⟩ := EndsInNumber.of_append (l := keywordLexeme c.header) hnumber nofun
  obtain ⟨k, -, hk⟩ := List.mem_map.mp (List.mem_of_getLast? hlast)
  cases hk

theorem seenOver_inner {before after : List Lexeme} {n : Name}
    (hinner : c.inner = before ++ ident n :: after) : SeenOver text n.value
      (Source.span text n.place) (.clause (some c.event.event.value) (isEntityList before)) := by
  have hsplit : (done ++ c :: more).flatMap ClauseTree.lexemes =
      (done.flatMap ClauseTree.lexemes ++
        (c.words ++ (c.event.lexemes ++ ⟨.lparen, c.lparen⟩ :: before))) ++
          ident n :: (after ++ [⟨.rparen, c.rparen⟩] ++ more.flatMap ClauseTree.lexemes) := by
    simp [ClauseTree.lexemes, hinner]
  rw [hsplit] at hlex
  refine seenOver_of_lex ha hlex (fun hnumber => ?_)
    fun ps hps => c.contextAfter_inner done hinner hps
  rw [← List.append_assoc, ← List.append_assoc] at hnumber
  exact c.numbers before n after hinner (hnumber.of_append nofun)

end

end

end EventQuery.Editor
