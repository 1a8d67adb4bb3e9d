import EventQuery.Editor.Context
import EventQuery.Proofs.Text.Runs
import EventQuery.Text.Identifier

/-! The pieces that the scan for a context cuts a text into, one kind of text at a time. Outside
quoted texts and comments the text is in ASCII characters, where the words of the scan are made of
the characters that names are made of. -/

namespace EventQuery.Editor

open Text

/-! ## ASCII -/

/-- The characters outside quoted texts and comments. A text may begin inside one of them, which
goes up to the character `stop`. -/
def bareFrom : Option Char → List Char → List Char
  | _, [] => []
  | some stop, c :: cs => bareFrom (if c = stop then none else some stop) cs
  | none, c :: cs =>
    if c = '-' ∧ cs.head? = some '-' then bareFrom (some '\n') cs
    else if c = '\'' ∨ c = '"' then bareFrom (some c) cs
    else c :: bareFrom none cs

/-- The characters of a text outside quoted texts and comments. -/
def bare (cs : List Char) : List Char := bareFrom none cs

/-- Outside quoted texts and comments there are only ASCII characters. -/
def IsAscii (cs : List Char) : Prop := ∀ c ∈ bare cs, c.toNat < 128

instance (cs : List Char) : Decidable (IsAscii cs) :=
  List.decidableBAll (fun c : Char => c.toNat < 128) (bare cs)

/-- In ASCII, a name goes on with just the characters that words of the scan are made of. -/
theorem isNameContinue_eq {c : Char} (hc : c.toNat < 128) : isNameContinue c = isWordChar c :=
  forall_ascii (p := fun c => isNameContinue c = isWordChar c) (by decide +kernel) hc

theorem isWordChar_of_isBlank {c : Char} (hc : c.toNat < 128) (h : isBlank c = true) :
    isWordChar c = false :=
  forall_ascii (p := fun c => isBlank c = true → isWordChar c = false) (by decide +kernel) hc h

/-- The character neither begins a comment nor a quoted text. -/
def IsPlain (c : Char) : Prop := c ≠ '-' ∧ c ≠ '\'' ∧ c ≠ '"'

instance (c : Char) : Decidable (IsPlain c) := inferInstanceAs (Decidable (_ ∧ _))

theorem isPlain_of {p : Char → Bool} (hdash : p '-' = false) (hsingle : p '\'' = false)
    (hdouble : p '"' = false) {c : Char} (h : p c = true) : IsPlain c := by
  refine ⟨?_, ?_, ?_⟩
  all_goals
    rintro rfl
    simp_all

theorem bareFrom_some {stop : Char} {w : List Char} (h : stop ∉ w) (rest : List Char) :
    bareFrom (some stop) (w ++ rest) = bareFrom (some stop) rest := by
  induction w with
  | nil => rfl
  | cons c w ih =>
    have hc : c ≠ stop := fun he => h (he ▸ List.mem_cons_self)
    rw [List.cons_append, bareFrom, if_neg hc, ih fun hw => h (List.mem_cons_of_mem c hw)]

/-- What has no quotes and no dashes is outside of quotes and comments altogether. -/
theorem bare_append {w : List Char} (h : ∀ c ∈ w, IsPlain c) (rest : List Char) :
    bare (w ++ rest) = w ++ bare rest := by
  induction w with
  | nil => rfl
  | cons c w ih =>
    obtain ⟨⟨hdash, hsingle, hdouble⟩, hw⟩ := List.forall_mem_cons.mp h
    rw [List.cons_append, bare, bareFrom, if_neg (fun h => hdash h.1),
      if_neg (not_or_intro hsingle hdouble), ← bare, ih hw, List.cons_append]

/-- The condition on a text is one on what stands in front and one on what stands behind. -/
theorem IsAscii.of_append {w rest : List Char} (h : IsAscii (w ++ rest))
    (hw : ∀ c ∈ w, IsPlain c) : (∀ c ∈ w, c.toNat < 128) ∧ IsAscii rest := by
  rw [IsAscii, bare_append hw] at h
  exact List.forall_mem_append.mp h

theorem IsAscii.head {cs : List Char} (h : IsAscii cs) : ∀ c ∈ cs.head?, c.toNat < 128 := by
  intro c hc
  obtain ⟨rest, rfl⟩ := List.head?_eq_some_iff.mp hc
  by_cases hplain : IsPlain c
  · have happend : IsAscii ([c] ++ rest) := h
    exact (happend.of_append (List.forall_mem_singleton.mpr hplain)).1 c (List.mem_singleton_self c)
  · by_cases hdash : c = '-'
    · rw [hdash]
      decide
    · by_cases hsingle : c = '\''
      · rw [hsingle]
        decide
      · rw [show c = '"' from by_contra fun hdouble => hplain ⟨hdash, hsingle, hdouble⟩]
        decide

/-! ## Pieces -/

theorem scanFrom_eq (n : Nat) (cs : List Char) : scanFrom n cs = scan (cs.drop n) := by
  induction cs generalizing n with
  | nil => rw [List.drop_nil, scan, scanFrom, scanFrom]
  | cons c cs ih =>
    cases n with
    | zero => rfl
    | succ n => rw [scanFrom, ih, List.drop_succ_cons]

theorem scan_blank {c : Char} (h : isBlank c = true) (cs : List Char) :
    scan (c :: cs) = scan cs := by
  rw [scan, scanFrom, if_pos h]
  rfl

/-- A comment goes to the end of its line. -/
theorem scan_comment {body rest : List Char} (hbody : '\n' ∉ body)
    (hrest : ∀ c ∈ rest.head?, c = '\n') : scan ('-' :: '-' :: body ++ rest) = scan rest := by
  have hrun : ('-' :: body ++ rest).takeWhile (· != '\n') = '-' :: body := by
    refine takeWhile_append_of_head? (List.forall_mem_cons.mpr ⟨rfl, fun c hc => ?_⟩) fun c hc => ?_
    · simpa using fun h : c = '\n' => hbody (h ▸ hc)
    · simp [hrest c hc]
  rw [List.cons_append, List.cons_append, scan, scanFrom, if_neg (by decide),
    if_pos (by simp), scanFrom_eq, ← List.cons_append, hrun, List.drop_length_add_append]
  cases rest with
  | nil => rfl
  | cons c rest => rw [hrest c rfl, scan_blank (by decide), List.drop_one, List.tail_cons]

/-- A quoted text is one piece whatever it has in it, brackets included. -/
theorem scan_quoted {q : Char} (hq : q = '\'' ∨ q = '"') {contents : List Char}
    (h : q ∉ contents) (rest : List Char) :
    scan (q :: contents ++ q :: rest) = .other :: scan rest := by
  have hrun : (contents ++ q :: rest).takeWhile (· != q) = contents := by
    refine takeWhile_append_of_head? (fun c hc => ?_) fun c hc => ?_
    · simpa using fun he : c = q => h (he ▸ hc)
    · cases hc
      simp
  have hblank : isBlank q = false := by
    rcases hq with rfl | rfl <;> decide
  rw [List.cons_append, scan, scanFrom, if_neg (by simp [hblank]),
    if_neg (by rcases hq with rfl | rfl <;> simp), if_pos (by simpa using hq), hrun, scanFrom_eq]
  simp

/-- The scan takes this character alone and for nothing in particular. -/
def isStray (c : Char) : Bool :=
  !(isBlank c || c = '-' || c = '\'' || c = '"' || c = '(' || c = ')' || c = ',' ||
    isAlphabetic c || c = '_')

theorem isStray_of_isDigit {c : Char} (h : c.isDigit = true) : isStray c = true :=
  forall_ascii (p := fun c => c.isDigit = true → isStray c = true) (by decide +kernel)
    (toNat_lt_of_isDigit h) h

theorem isStray_of_numeral {c : Char} (h : c.isDigit = true ∨ c = '.') : isStray c = true := by
  rcases h with h | rfl
  · exact isStray_of_isDigit h
  · decide +kernel

theorem isPlain_of_isStray {c : Char} (h : isStray c = true) : IsPlain c :=
  isPlain_of (by decide) (by decide) (by decide) h

theorem scan_stray {c : Char} (h : isStray c = true) (cs : List Char) :
    scan (c :: cs) = .other :: scan cs := by
  simp only [isStray, Bool.not_eq_true', Bool.or_eq_false_iff, decide_eq_false_iff_not] at h
  obtain ⟨⟨⟨⟨⟨⟨⟨⟨hblank, hdash⟩, hsingle⟩, hdouble⟩, hopen⟩, hclose⟩, hcomma⟩, halpha⟩, hscore⟩ := h
  rw [scan, scanFrom]
  simp [hblank, hdash, hsingle, hdouble, hopen, hclose, hcomma, halpha, hscore, scanFrom_eq]

/-- A character that is part of nothing else is a piece of its own. -/
theorem scan_strays {w : List Char} (h : ∀ c ∈ w, isStray c = true) (rest : List Char) :
    scan (w ++ rest) = List.replicate w.length .other ++ scan rest := by
  induction w with
  | nil => rfl
  | cons c w ih =>
    obtain ⟨hc, hw⟩ := List.forall_mem_cons.mp h
    rw [List.cons_append, scan_stray hc, ih hw]
    rfl

theorem scan_dash {cs : List Char} (h : cs.head? ≠ some '-') :
    scan ('-' :: cs) = .other :: scan cs := by
  have halpha : isAlphabetic '-' = false := by decide +kernel
  rw [scan, scanFrom, if_neg (by decide), if_neg (by simpa using h)]
  simp [halpha, scanFrom_eq]

/-- A name starts with none of the characters that the scan looks for first. -/
theorem isNameStart_ascii {c : Char} (hc : c.toNat < 128) (h : isNameStart c = true) :
    isBlank c = false ∧ IsPlain c ∧ c ≠ '(' ∧ c ≠ ')' ∧ c ≠ ',' ∧
      (isAlphabetic c || c = '_') = true ∧ isNameContinue c = true :=
  forall_ascii (p := fun c => isNameStart c = true → isBlank c = false ∧ IsPlain c ∧ c ≠ '(' ∧
    c ≠ ')' ∧ c ≠ ',' ∧ (isAlphabetic c || c = '_') = true ∧ isNameContinue c = true)
    (by decide +kernel) hc h

/-- In ASCII, the scan takes a word for what the lexer takes a name or a keyword for. -/
theorem scan_word {c : Char} {run rest : List Char} (hc : c.toNat < 128)
    (hstart : isNameStart c = true) (hrun : ∀ d ∈ run, isWordChar d = true)
    (hrest : ∀ d ∈ rest.head?, isWordChar d = false) :
    scan (c :: run ++ rest) = .word (c :: run) :: scan rest := by
  obtain ⟨hblank, ⟨hdash, hsingle, hdouble⟩, hopen, hclose, hcomma, halpha, -⟩ :=
    isNameStart_ascii hc hstart
  rw [List.cons_append, scan, scanFrom, if_neg (by simp [hblank]), if_neg (by simp [hdash]),
    if_neg (by simp [hsingle, hdouble]), if_neg hopen, if_neg hclose, if_neg hcomma, if_pos halpha,
    takeWhile_append_of_head? hrun hrest]
  dsimp only
  rw [scanFrom_eq, List.drop_left]

end EventQuery.Editor
