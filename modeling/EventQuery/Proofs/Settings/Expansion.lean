import EventQuery.Proofs.Outcome
import EventQuery.Proofs.Text.Runs
import EventQuery.Settings.Basic

/-! Texts with variables. A text is a sequence of pieces as they are written: characters that stand
for themselves, names in braces, plain names and dollar signs without a name. Every text is one such
sequence and no other (`exists_reads`, `Reads.unique`), and the segments of a text are those of its
pieces (`Reads.readFrom`). So the expansion stops at the first name without a value, and otherwise
puts each value in its place as it is. -/

namespace EventQuery.Settings

open Text Outcome

/-! ## The pieces of a text -/

inductive Piece where
  /-- A character that stands for itself. -/
  | literal (c : Char)
  /-- A name with its braces. -/
  | braced (name : List Char)
  /-- A name in braces that the end of the text closes. -/
  | unclosed (name : List Char)
  | plain (name : List Char)
  /-- A dollar sign without a name. -/
  | dollar
deriving DecidableEq

namespace Piece

def text : Piece → List Char
  | .literal c => [c]
  | .braced name => '$' :: '\x7b' :: (name ++ ['\x7d'])
  | .unclosed name => '$' :: '\x7b' :: name
  | .plain name => '$' :: name
  | .dollar => ['$']

/-- The piece may stand in front of `rest`. -/
def Fits (rest : List Char) : Piece → Prop
  | .literal c => c ≠ '$'
  | .braced name => '\x7d' ∉ name
  | .unclosed name => '\x7d' ∉ name ∧ rest = []
  | .plain name => name ≠ [] ∧ (∀ c ∈ name, isWordChar c = true) ∧
    ∀ c ∈ rest.head?, isWordChar c = false
  | .dollar => ∀ c ∈ rest.head?, c ≠ '\x7b' ∧ isWordChar c = false

/-- The variable that the piece refers to. -/
def name? : Piece → Option String
  | .literal _ | .dollar => none
  | .braced name | .unclosed name | .plain name => some (String.ofList name)

/-- What stands in place of the piece: the value of its variable, or the piece itself. -/
def shown (value? : String → Option String) (p : Piece) : List Char :=
  match p.name? with
  | none => p.text
  | some name => ((value? name).getD "").toList

end Piece

/-- The text is these pieces, one behind the other. -/
inductive Reads : List Char → List Piece → Prop
  | nil : Reads [] []
  | cons {p : Piece} {rest : List Char} {pieces : List Piece} :
    p.Fits rest → Reads rest pieces → Reads (p.text ++ rest) (p :: pieces)

/-! ## One reading -/

theorem isWordChar_brace : isWordChar '\x7b' = false := by decide +kernel

theorem bne_brace_of_notMem {name : List Char} (h : '\x7d' ∉ name) :
    ∀ c ∈ name, (c != '\x7d') = true := by
  intro c hc
  rw [bne_iff_ne]
  intro heq
  exact h (heq ▸ hc)

/-- The piece at the front of a text, and what is behind it. -/
def front : List Char → Option (Piece × List Char)
  | [] => none
  | c :: cs =>
    if c ≠ '$' then some (.literal c, cs)
    else
      match cs with
      | '\x7b' :: rest =>
        let name := Segment.bracedName rest
        some (if '\x7d' ∈ rest then .braced name else .unclosed name, rest.drop (name.length + 1))
      | _ =>
        let name := Segment.plainName cs
        if name.isEmpty then some (.dollar, cs) else some (.plain name, cs.drop name.length)

theorem front_brace (rest : List Char) :
    front ('$' :: '\x7b' :: rest) = some (if '\x7d' ∈ rest then .braced (Segment.bracedName rest)
      else .unclosed (Segment.bracedName rest), rest.drop ((Segment.bracedName rest).length + 1)) :=
  rfl

theorem front_plain {cs : List Char} (h : cs.head? ≠ some '\x7b') :
    front ('$' :: cs) = if (Segment.plainName cs).isEmpty then some (.dollar, cs)
      else some (.plain (Segment.plainName cs), cs.drop (Segment.plainName cs).length) := by
  rw [front, if_neg (not_not_intro rfl)]
  intro rest heq
  exact h (heq ▸ rfl)

/-- A piece that fits is the one at the front. -/
theorem Piece.Fits.front_eq {p : Piece} {rest : List Char} (h : p.Fits rest) :
    front (p.text ++ rest) = some (p, rest) := by
  cases p with
  | literal c => exact if_pos h
  | braced name =>
    have hname : Segment.bracedName (name ++ '\x7d' :: rest) = name :=
      takeWhile_append_of_head? (bne_brace_of_notMem h) (by simp)
    have htext : (Piece.braced name).text ++ rest = '$' :: '\x7b' :: (name ++ '\x7d' :: rest) := by
      simp [Piece.text]
    rw [htext, front_brace, hname, if_pos (by simp), List.append_cons, List.drop_left' (by simp)]
  | unclosed name =>
    obtain ⟨hclosing, rfl⟩ := h
    have hname : Segment.bracedName name = name :=
      List.takeWhile_eq_self_iff.mpr (bne_brace_of_notMem hclosing)
    rw [List.append_nil, Piece.text, front_brace, hname, if_neg hclosing,
      List.drop_of_length_le (Nat.le_succ _)]
  | plain name =>
    obtain ⟨hne, hword, hrest⟩ := h
    have hname : Segment.plainName (name ++ rest) = name := takeWhile_append_of_head? hword hrest
    have hhead : (name ++ rest).head? ≠ some '\x7b' := by
      rw [List.head?_append_of_ne_nil name hne]
      intro hbrace
      have hw := hword _ (List.mem_of_head? hbrace)
      rw [isWordChar_brace] at hw
      cases hw
    rw [Piece.text, List.cons_append, front_plain hhead, hname, if_neg (by simpa using hne),
      List.drop_left]
  | dollar =>
    have hname : Segment.plainName ([] ++ rest) = [] :=
      takeWhile_append_of_head? nofun fun c hc => (h c hc).2
    have hhead : rest.head? ≠ some '\x7b' := fun hbrace => (h _ hbrace).1 rfl
    rw [Piece.text, List.singleton_append, front_plain hhead, ← List.nil_append rest, hname]
    rfl

/-- The piece at the front fits there. -/
theorem exists_fits (c : Char) (cs : List Char) :
    ∃ p rest, c :: cs = Piece.text p ++ rest ∧ p.Fits rest := by
  by_cases hc : c = '$'
  · subst hc
    by_cases hhead : cs.head? = some '\x7b'
    · obtain ⟨cs, rfl⟩ := List.head?_eq_some_iff.mp hhead
      obtain ⟨name, rest, rfl, -, hname, hrest⟩ := exists_run (· != '\x7d') cs
      have hclosing : '\x7d' ∉ name := fun hmem => absurd (hname _ hmem) (by decide)
      cases rest with
      | nil => exact ⟨.unclosed name, [], by simp [Piece.text], hclosing, rfl⟩
      | cons d rest =>
        have hd : d = '\x7d' := by simpa using hrest d rfl
        subst hd
        exact ⟨.braced name, rest, by simp [Piece.text], hclosing⟩
    · obtain ⟨name, rest, rfl, -, hname, hrest⟩ := exists_run isWordChar cs
      by_cases hne : name = []
      · subst hne
        refine ⟨.dollar, rest, rfl, fun d hd => ⟨?_, hrest d hd⟩⟩
        intro hbrace
        subst hbrace
        exact hhead hd
      · exact ⟨.plain name, rest, rfl, hne, hname, hrest⟩
  · exact ⟨.literal c, cs, rfl, hc⟩

theorem Piece.text_ne_nil (p : Piece) : p.text ≠ [] := by
  cases p <;> exact List.cons_ne_nil _ _

/-- Every text is a sequence of pieces. -/
theorem exists_reads (cs : List Char) : ∃ pieces, Reads cs pieces := by
  induction hn : cs.length using Nat.strongRecOn generalizing cs with
  | _ n ih =>
    cases cs with
    | nil => exact ⟨[], .nil⟩
    | cons c cs =>
      -- A piece may take any number of characters, so the induction is on the length.
      obtain ⟨p, rest, heq, hp⟩ := exists_fits c cs
      have hlt : rest.length < n := by
        rw [← hn, heq, List.length_append]
        have hpos := List.length_pos_iff.mpr p.text_ne_nil
        omega
      obtain ⟨pieces, hrest⟩ := ih _ hlt rest rfl
      rw [heq]
      exact ⟨p :: pieces, .cons hp hrest⟩

/-- No text is two sequences of pieces. -/
theorem Reads.unique {cs : List Char} {pieces others : List Piece} (h : Reads cs pieces)
    (h' : Reads cs others) : others = pieces := by
  induction h generalizing others with
  | nil =>
    generalize hcs : ([] : List Char) = cs at h'
    cases h' with
    | nil => rfl
    | cons =>
      exact absurd (List.append_eq_nil_iff.mp hcs.symm).1 (Piece.text_ne_nil _)
  | @cons p rest pieces hp hrest ih =>
    generalize hcs : p.text ++ rest = cs at h'
    cases h' with
    | nil => exact absurd (List.append_eq_nil_iff.mp hcs).1 p.text_ne_nil
    | @cons q rest' others hq hrest' =>
      have hfront := hp.front_eq
      rw [hcs, hq.front_eq] at hfront
      cases hfront
      rw [ih hrest']

/-! ## The segments of a text -/

/-- The piece as the expansion sees it. -/
def Piece.segment (p : Piece) : Segment :=
  match p with
  | .literal c => .character c
  | .dollar => .character '$'
  | .braced name | .unclosed name | .plain name => .reference (String.ofList name)

theorem readFrom_eq_drop (skip : Nat) (cs : List Char) :
    Segment.readFrom skip cs = Segment.readFrom 0 (cs.drop skip) := by
  induction cs generalizing skip with
  | nil => rw [List.drop_nil, Segment.readFrom, Segment.readFrom]
  | cons c cs ih =>
    cases skip with
    | zero => rfl
    | succ skip => rw [Segment.readFrom, ih, List.drop_succ_cons]

theorem readFrom_brace (rest : List Char) : Segment.readFrom 0 ('$' :: '\x7b' :: rest) =
    .reference (String.ofList (Segment.bracedName rest)) ::
      Segment.readFrom 0 (rest.drop ((Segment.bracedName rest).length + 1)) := by
  rw [Segment.readFrom, if_neg (not_not_intro rfl)]
  exact congrArg _ (readFrom_eq_drop _ _)

theorem readFrom_plain {cs : List Char} (h : cs.head? ≠ some '\x7b') :
    Segment.readFrom 0 ('$' :: cs) =
      if (Segment.plainName cs).isEmpty then .character '$' :: Segment.readFrom 0 cs
      else .reference (String.ofList (Segment.plainName cs)) ::
        Segment.readFrom 0 (cs.drop (Segment.plainName cs).length) := by
  rw [← readFrom_eq_drop, Segment.readFrom, if_neg (not_not_intro rfl)]
  intro rest heq
  exact h (heq ▸ rfl)

theorem readFrom_of_front {cs rest : List Char} {p : Piece} (h : front cs = some (p, rest)) :
    Segment.readFrom 0 cs = p.segment :: Segment.readFrom 0 rest := by
  cases cs with
  | nil => cases h
  | cons c cs =>
    by_cases hc : c = '$'
    · subst hc
      by_cases hhead : cs.head? = some '\x7b'
      · obtain ⟨cs, rfl⟩ := List.head?_eq_some_iff.mp hhead
        rw [front_brace] at h
        cases h
        rw [readFrom_brace]
        split <;> rfl
      · rw [front_plain hhead] at h
        rw [readFrom_plain hhead]
        split at h
        · next hname =>
          cases h
          rw [if_pos hname]
          rfl
        · next hname =>
          cases h
          rw [if_neg hname]
          rfl
    · have hfront : front (c :: cs) = some (.literal c, cs) := if_pos hc
      rw [hfront] at h
      cases h
      exact if_pos hc

theorem Reads.readFrom {cs : List Char} {pieces : List Piece} (h : Reads cs pieces) :
    Segment.readFrom 0 cs = pieces.map Piece.segment := by
  induction h with
  | nil => rfl
  | cons hp _ ih => rw [readFrom_of_front hp.front_eq, ih, List.map_cons]

/-! ## The expansion -/

/-- What stands in place of a piece, or the name that has no value. -/
def Piece.value (value? : String → Option String) (p : Piece) : Except String (List Char) :=
  match p.name? with
  | none => .ok p.text
  | some name =>
    match value? name with
    | none => .error name
    | some value => .ok value.toList

section
variable {value? : String → Option String}

theorem Piece.value_of_name? {p : Piece} {name : String} (h : p.name? = some name) :
    p.value value? = match value? name with
      | none => .error name
      | some value => .ok value.toList := by
  rw [Piece.value, h]

theorem Piece.value_eq_error_iff {p : Piece} {name : String} :
    p.value value? = .error name ↔ p.name? = some name ∧ value? name = none := by
  cases hname : p.name? with
  | none =>
    rw [Piece.value, hname]
    exact ⟨nofun, nofun⟩
  | some n =>
    rw [Piece.value_of_name? hname]
    cases hv : value? n with
    | none =>
      constructor
      · intro h
        cases h
        exact ⟨rfl, hv⟩
      · intro h
        exact congrArg _ (Option.some.inj h.1)
    | some v =>
      refine ⟨nofun, fun h => ?_⟩
      rw [← Option.some.inj h.1, hv] at h
      cases h.2

theorem Piece.value_eq_ok_iff {p : Piece} {cs : List Char} :
    p.value value? = .ok cs ↔ (∀ name ∈ p.name?, value? name ≠ none) ∧ p.shown value? = cs := by
  rw [Piece.shown]
  cases hname : p.name? with
  | none => simp [Piece.value, hname]
  | some n =>
    rw [Piece.value_of_name? hname]
    cases hv : value? n <;> simp [hv]

theorem expand_cons (p : Piece) (segments : List Segment) :
    Segment.expand value? (p.segment :: segments) = do
      let cs ← p.value value?
      let more ← Segment.expand value? segments
      return cs ++ more := by
  cases p with
  | literal c | dollar => rfl
  | braced name | unclosed name | plain name =>
    rw [Piece.value_of_name? rfl, Piece.segment, Segment.expand]
    cases value? (String.ofList name) <;> rfl

theorem expand_segments (pieces : List Piece) :
    Segment.expand value? (pieces.map Piece.segment) =
      (pieces.mapM (Piece.value value?)).map List.flatten := by
  induction pieces with
  | nil => rfl
  | cons p pieces ih =>
    rw [List.map_cons, expand_cons, ih, List.mapM_cons]
    cases p.value value? with
    | error e => rfl
    | ok cs => cases pieces.mapM (Piece.value value?) <;> rfl

theorem expand_of_reads {text : String} {pieces : List Piece} (h : Reads text.toList pieces) :
    expand value? text =
      both .missingVariable (String.ofList ·.flatten) (pieces.mapM (Piece.value value?)) := by
  rw [expand, Segment.read, h.readFrom, expand_segments]
  cases pieces.mapM (Piece.value value?) <;> rfl

theorem mapM_value_eq_ok_iff {pieces : List Piece} {texts : List (List Char)} :
    pieces.mapM (Piece.value value?) = .ok texts ↔
      (∀ p ∈ pieces, ∀ name ∈ p.name?, value? name ≠ none) ∧
        pieces.map (Piece.shown value?) = texts := by
  simp only [mapM_eq_ok_iff, Piece.value_eq_ok_iff]
  rw [List.forall₂_and_left, ← List.forall₂_map_left_iff, List.forall₂_eq_eq_eq]

/-- The expansion succeeds when all variables have values, and these stand as they are. -/
theorem expand_eq_ok_iff {text result : String} {pieces : List Piece}
    (h : Reads text.toList pieces) : expand value? text = .ok result ↔
      (∀ p ∈ pieces, ∀ name ∈ p.name?, value? name ≠ none) ∧
        result.toList = pieces.flatMap (Piece.shown value?) := by
  rw [expand_of_reads h]
  cases hm : pieces.mapM (Piece.value value?) with
  | error e =>
    refine ⟨nofun, fun hall => ?_⟩
    rw [mapM_value_eq_ok_iff.mpr ⟨hall.1, rfl⟩] at hm
    cases hm
  | ok texts =>
    obtain ⟨hall, rfl⟩ := mapM_value_eq_ok_iff.mp hm
    rw [both, ← List.flatMap_def]
    constructor
    · intro hresult
      cases hresult
      exact ⟨hall, String.toList_ofList⟩
    · intro hresult
      rw [← hresult.2, String.ofList_toList]

/-- The expansion stops at the first variable without a value. -/
theorem expand_eq_error_iff {text : String} {pieces : List Piece} {e : SettingsError}
    (h : Reads text.toList pieces) : expand value? text = .error e ↔
      ∃ before p after name, pieces = before ++ p :: after ∧
        (∀ q ∈ before, ∀ n ∈ q.name?, value? n ≠ none) ∧
        p.name? = some name ∧ value? name = none ∧ e = .missingVariable name := by
  have hsound (q : Piece) :
      (∃ cs, q.value value? = .ok cs) ↔ ∀ n ∈ q.name?, value? n ≠ none := by
    simp [Piece.value_eq_ok_iff]
  rw [expand_of_reads h]
  constructor
  · intro herror
    cases hm : pieces.mapM (Piece.value value?) with
    | ok texts =>
      rw [hm] at herror
      cases herror
    | error name =>
      rw [hm] at herror
      obtain ⟨before, p, after, hpieces, hbefore, hp⟩ := mapM_eq_error_iff.mp hm
      obtain ⟨hname, hnone⟩ := Piece.value_eq_error_iff.mp hp
      exact ⟨before, p, after, name, hpieces, fun q hq => (hsound q).mp (hbefore q hq), hname,
        hnone, (Except.error.inj herror).symm⟩
  · intro ⟨before, p, after, name, hpieces, hbefore, hname, hnone, he⟩
    have hm : pieces.mapM (Piece.value value?) = .error name := by
      apply mapM_eq_error_iff.mpr
      exact ⟨before, p, after, hpieces, fun q hq => (hsound q).mpr (hbefore q hq),
        Piece.value_eq_error_iff.mpr ⟨hname, hnone⟩⟩
    rw [hm, he]
    rfl

/-! ## The variables of a host -/

/-- Only the values of the variables in the text matter. -/
theorem expand_congr {other? : String → Option String} {text : String}
    (h : ∀ name, Segment.reference name ∈ Segment.read text → other? name = value? name) :
    expand other? text = expand value? text := by
  have hsegments : Segment.expand other? (Segment.read text) =
      Segment.expand value? (Segment.read text) := by
    generalize Segment.read text = segments at h ⊢
    induction segments with
    | nil => rfl
    | cons s segments ih =>
      have hrest := ih fun name hname => h name (List.mem_cons_of_mem _ hname)
      cases s with
      | character c => rw [Segment.expand, Segment.expand, hrest]
      | reference name => rw [Segment.expand, Segment.expand, hrest, h name List.mem_cons_self]
  rw [expand, expand, hsegments]

theorem lookup_map_self {names : List String} {name : String} (h : name ∈ names) :
    (names.map fun n => (n, value? n)).lookup name = some (value? name) := by
  induction names with
  | nil => cases h
  | cons n names ih =>
    rw [List.map_cons, List.lookup_cons]
    by_cases hn : name = n
    · subst hn
      simp
    · rw [beq_false_of_ne hn]
      exact ih ((List.mem_cons.mp h).resolve_left hn)

/-- Asking the host for the names in the text is enough. -/
theorem expandOn_eq {m : Type → Type} [Monad m] [LawfulMonad m] {host : Host m}
    (h : ∀ name, host.valueOf? name = pure (value? name)) (text : String) :
    expandOn host text = pure (expand value? text) := by
  have hvalues (names : List String) :
      (names.mapM fun name => do return (name, ← host.valueOf? name)) =
        (pure (names.map fun n => (n, value? n)) : m _) := by
    simp only [h, pure_bind]
    exact List.mapM_pure
  rw [expandOn, hvalues, pure_bind]
  apply congrArg pure
  apply expand_congr
  intro name hname
  rw [lookup_map_self, Option.join_some]
  exact List.mem_filterMap.mpr ⟨_, hname, rfl⟩

end

/-- **Expansion follows the one reading of a text, and values are not read again.** A text is one
sequence of pieces and no other. The expansion fails exactly when a variable of these pieces has no
value, and names the first of them; otherwise the values stand in place of their pieces as they are,
and the other pieces stay. On a host it asks for no more than the variables in the text. -/
theorem expansion_follows_reading (value? : String → Option String) (text : String) :
    ∃ pieces, Reads text.toList pieces ∧ (∀ others, Reads text.toList others → others = pieces) ∧
      ((∃ e, expand value? text = .error e) ↔
        ∃ p ∈ pieces, ∃ name ∈ p.name?, value? name = none) ∧
      (∀ e, expand value? text = .error e ↔
        ∃ before p after name, pieces = before ++ p :: after ∧
          (∀ q ∈ before, ∀ n ∈ q.name?, value? n ≠ none) ∧
          p.name? = some name ∧ value? name = none ∧ e = .missingVariable name) ∧
      (∀ result, expand value? text = .ok result ↔
        (∀ p ∈ pieces, ∀ name ∈ p.name?, value? name ≠ none) ∧
          result.toList = pieces.flatMap (Piece.shown value?)) ∧
      ∀ (m : Type → Type) [Monad m] [LawfulMonad m] (host : Host m),
        (∀ name, host.valueOf? name = pure (value? name)) →
          expandOn host text = pure (expand value? text) := by
  obtain ⟨pieces, h⟩ := exists_reads text.toList
  refine ⟨pieces, h, fun others => h.unique, ?_, fun e => expand_eq_error_iff h,
    fun result => expand_eq_ok_iff h, fun m _ _ host hhost => expandOn_eq hhost text⟩
  constructor
  · intro ⟨e, he⟩
    obtain ⟨before, p, after, name, rfl, -, hname, hnone, -⟩ := (expand_eq_error_iff h).mp he
    exact ⟨p, List.mem_append_right _ List.mem_cons_self, name, hname, hnone⟩
  · intro ⟨p, hp, name, hname, hnone⟩
    cases hexpand : expand value? text with
    | error e => exact ⟨e, rfl⟩
    | ok result => exact absurd hnone (((expand_eq_ok_iff h).mp hexpand).1 p hp name hname)

example : expand (fun name => if name = "A" then some "$B" else none) "x$A/${A}$" =
    .ok "x$B/$B$" := by
  decide +kernel

end EventQuery.Settings
