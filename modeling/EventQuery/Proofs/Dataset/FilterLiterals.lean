import EventQuery.Proofs.Dataset.Extension
import EventQuery.Proofs.Dataset.Recovery
import EventQuery.Proofs.Number.Rounding
import EventQuery.Proofs.Query.Spans
import Mathlib.Algebra.Order.Group.Unbundled.Int

/-! The numbers that filters compare with. An integer of 64 bits is written into the SQL as it is. A
larger one is rounded to a binary number first, and written with the digits that tell this number
from its neighbours, so that the text may stand for another integer than the one of the filter. -/

namespace EventQuery

open Outcome Grammar
open Sql.Reader hiding sign

namespace Numeral

open NumberLayout

/-! ## Integers as they are read -/

def signed (negative : Bool) (v : ℚ) : ℚ := if negative then -v else v

/-- A numeral read as an exact decimal number. -/
def exactValue? (s : String) : Option ℚ :=
  let (negative, cs) := splitSign s.toList
  (decimal? cs).map fun d => signed negative d.value

/-- The numeral is an integer in digits, with a minus sign or none, leading zeros or none. -/
def Denotes (numeral : String) (n : Int) : Prop :=
  ∃ negative ds, IsDigits ds ∧ numeral.toList = sign negative ++ ds ∧
    n = if negative then -(Nat.ofDigitChars 10 ds 0 : Int) else Nat.ofDigitChars 10 ds 0

/-- The integer is one of 64 bits. -/
def FitsInt64 (n : Int) : Prop := -2 ^ 63 ≤ n ∧ n < 2 ^ 63

instance (n : Int) : Decidable (FitsInt64 n) := inferInstanceAs (Decidable (_ ∧ _))

theorem signed_mul_signed (negative : Bool) (v w : ℚ) :
    signed negative v * signed negative w = v * w := by
  cases negative <;> simp [signed]

theorem abs_signed (negative : Bool) {v : ℚ} (h : 0 ≤ v) : |signed negative v| = v := by
  cases negative <;> simpa [signed]

theorem signed_natAbs (n : Int) : signed (decide (n < 0)) n.natAbs = n := by
  by_cases h : n < 0
  · have hcast : ((n.natAbs : Int) : ℚ) = (-n : Int) := by rw [Int.ofNat_natAbs_of_nonpos h.le]
    rw [signed, if_pos (decide_eq_true h), ← Int.cast_natCast, hcast]
    simp
  · have hcast : ((n.natAbs : Int) : ℚ) = n := by rw [Int.natAbs_of_nonneg (not_lt.mp h)]
    rwa [signed, if_neg (by simpa using h), ← Int.cast_natCast]

theorem splitSign_sign_append {ds : List Char} (h : IsDigits ds) (negative : Bool) :
    splitSign (sign negative ++ ds) = (negative, ds) := by
  cases negative with
  | true => rfl
  | false => simpa [sign] using splitSign_of_isDigits h []

theorem decimal?_of_isDigits {ds : List Char} (h : IsDigits ds) :
    decimal? ds = some ⟨digitsValue 0 ds, 0⟩ := by
  simpa using decimal?_of_whole h (rfl : exponent? [] = some 0)

theorem toList_toString (n : Int) :
    (toString n).toList = sign (decide (n < 0)) ++ Nat.toDigits 10 n.natAbs := by
  cases n with
  | ofNat n => exact Nat.toList_repr
  | negSucc n =>
    have hsign : decide (Int.negSucc n < 0) = true := decide_eq_true (Int.negSucc_lt_zero n)
    rw [hsign]
    show ("-" ++ (n + 1).repr).toList = _
    rw [String.toList_append, Nat.toList_repr]
    rfl

theorem exactValue?_toString (n : Int) : exactValue? (toString n) = some (n : ℚ) := by
  have hdigits := isDigits_toDigits n.natAbs
  simp only [exactValue?, toList_toString, splitSign_sign_append hdigits,
    decimal?_of_isDigits hdigits, Option.map_some, digitsValue_toDigits, Decimal.value, zpow_zero,
    mul_one, signed_natAbs]

/-- What is written for a binary number is read as the shortest decimal that rounds to it. -/
theorem exactValue?_write (layout : NumberLayout) (negative : Bool) (rank : Fin Binary64.ranks) :
    exactValue? (layout.write (.finite negative rank)) =
      some (signed negative ((Binary64.magnitude rank).shortest layout.tie).value) := by
  obtain ⟨d, hd, hvalue⟩ := layout.exists_decimal?_layDecimal
    ((Binary64.magnitude rank).shortest layout.tie)
  simp [exactValue?, write, splitSign_write, hd, hvalue]

theorem int64?_of_denotes {numeral : String} {n : Int} (h : Denotes numeral n) :
    int64? numeral = if FitsInt64 n then some n else none := by
  obtain ⟨negative, ds, hds, hnumeral, hn⟩ := h
  simp only [int64?, hnumeral, splitSign_sign_append hds, natural?_of_isDigits hds, digitsValue_eq,
    ← hn, FitsInt64, Bool.and_eq_true, decide_eq_true_eq]
  rfl

theorem ne_zero_of_not_fits {n : Int} (h : ¬FitsInt64 n) : n ≠ 0 := by
  rintro rfl
  exact h ⟨by norm_num, by norm_num⟩

theorem toLower_of_isDigit {c : Char} (h : c.isDigit = true) : c.toLower = c := by
  have hascii : ∀ n < 128, (Char.ofNat n).isDigit = true →
      (Char.ofNat n).toLower = Char.ofNat n := by decide
  exact Text.forall_ascii (p := fun c => c.isDigit = true → c.toLower = c) hascii
    (Text.toNat_lt_of_isDigit h) h

theorem binary64?_of_isDigits {numeral : String} {negative : Bool} {ds : List Char}
    (h : IsDigits ds) (hnumeral : numeral.toList = sign negative ++ ds) :
    binary64? numeral = some (.ofDecimal negative ⟨digitsValue 0 ds, 0⟩) := by
  have hlower : ds.map Char.toLower = ds :=
    (List.map_congr_left fun c hc => toLower_of_isDigit (h.2 c hc)).trans (List.map_id ds)
  have hword {s : String} {c : Char} (hc : c ∈ s.toList) (hletter : c.isDigit = false) :
      String.ofList ds ≠ s := by
    rintro rfl
    rw [String.toList_ofList] at hc
    exact absurd (h.2 c hc) (Bool.eq_false_iff.mp hletter)
  simp only [binary64?, hnumeral, splitSign_sign_append h, decimal?_of_isDigits h, hlower]
  split
  · next heq => exact absurd heq (hword (by decide : 'i' ∈ "inf".toList) rfl)
  · next heq => exact absurd heq (hword (by decide : 'i' ∈ "infinity".toList) rfl)
  · next heq => exact absurd heq (hword (by decide : 'n' ∈ "nan".toList) rfl)
  · rfl

theorem point_notMem_of_denotes {numeral : String} {n : Int} (h : Denotes numeral n) :
    numeral.toList.contains '.' = false := by
  obtain ⟨negative, ds, hds, hnumeral, -⟩ := h
  rw [hnumeral, List.contains_eq_mem, decide_eq_false_iff_not, List.mem_append, not_or]
  constructor
  · cases negative <;> decide
  · intro hmem
    exact absurd (hds.2 _ hmem) (by decide)

/-- The sign and the digits of an integer that is not zero. -/
theorem exists_digits_of_denotes {numeral : String} {n : Int} (h : Denotes numeral n)
    (hn : n ≠ 0) : ∃ ds, IsDigits ds ∧ numeral.toList = sign (decide (n < 0)) ++ ds ∧
      digitsValue 0 ds = n.natAbs := by
  obtain ⟨negative, ds, hds, hnumeral, rfl⟩ := h
  refine ⟨ds, hds, ?_, ?_⟩
  · rw [hnumeral]
    congr 2
    cases negative <;> simp at hn ⊢
    omega
  · rw [digitsValue_eq]
    cases negative <;> simp

theorem ofDecimal_of_whole (negative : Bool) {n : Nat} (h : n ≠ 0) :
    Binary64.ofDecimal negative ⟨n, 0⟩ = .ofRank negative (Binary64.nearestRank n 1) := by
  simp [Binary64.ofDecimal, Decimal.numerator, Decimal.denominator, h]

end Numeral

open Numeral

namespace Binary64

/-- Two numbers of one sign for which the same finite binary number is nearest. -/
def RoundAlike (v w : ℚ) : Prop :=
  0 < v * w ∧ ∃ rank : Fin ranks, (magnitude rank).IsNearest |v| ∧ (magnitude rank).IsNearest |w|

theorem nearestRank_ne_zero {n : Nat} (h : 0 < n) : nearestRank n 1 ≠ 0 := by
  intro hzero
  have hupper := (isNearest_nearestRank h Nat.one_pos).upper
  rw [hzero, magnitude_of_lt (by decide), Magnitude.upper_eq, Nat.cast_one, div_one] at hupper
  -- What rounds to zero is at most half of the least magnitude.
  have hone : (1 : ℚ) ≤ n := by exact_mod_cast h
  have htiny : (2 : ℚ) ^ (-1074 : ℤ) ≤ 1 := zpow_le_one_of_nonpos₀ (by norm_num) (by norm_num)
  rw [Nat.cast_zero] at hupper
  linarith

theorem roundAlike_shortest {n : Int} (tie : Tie) (hn : n ≠ 0)
    (hrank : nearestRank n.natAbs 1 < ranks) :
    RoundAlike n
      (signed (decide (n < 0)) ((magnitude (nearestRank n.natAbs 1)).shortest tie).value) := by
  have hnatAbs : 0 < n.natAbs := Int.natAbs_pos.mpr hn
  have hpos : (0 : ℚ) < n.natAbs := by exact_mod_cast hnatAbs
  have hnearest := isNearest_nearestRank hnatAbs Nat.one_pos
  rw [Nat.cast_one, div_one] at hnearest
  have hne := nearestRank_ne_zero hnatAbs
  obtain ⟨rank, hsucc⟩ := Nat.exists_eq_succ_of_ne_zero hne
  have hvalue := value_shortest_pos tie rank
  rw [← Nat.succ_eq_add_one, ← hsucc] at hvalue
  rw [← signed_natAbs n]
  refine ⟨?_, ⟨_, hrank⟩, ?_, ?_⟩
  · rw [signed_mul_signed]
    exact mul_pos hpos hvalue
  · rw [abs_signed _ hpos.le]
    exact hnearest
  · rw [abs_signed _ hvalue.le]
    exact Magnitude.isNearest_shortest tie (mantissa_magnitude_ne_zero hne)

end Binary64

/-! ## The literal of a filter -/

section
variable {numeral : String} {n : Int} (h : Denotes numeral n)
include h

theorem Parser.numberLiteral_of_fits (hfits : FitsInt64 n) :
    numberLiteral numeral = .integer n := by
  rw [numberLiteral, if_neg (Bool.eq_false_iff.mp (point_notMem_of_denotes h)),
    int64?_of_denotes h, if_pos hfits]

theorem Parser.numberLiteral_of_not_fits (hfits : ¬FitsInt64 n) :
    numberLiteral numeral =
      .real (.ofRank (decide (n < 0)) (Binary64.nearestRank n.natAbs 1)) := by
  have hn := ne_zero_of_not_fits hfits
  obtain ⟨ds, hds, hnumeral, hvalue⟩ := exists_digits_of_denotes h hn
  rw [numberLiteral, if_neg (Bool.eq_false_iff.mp (point_notMem_of_denotes h)),
    int64?_of_denotes h, if_neg hfits, binary64?_of_isDigits hds hnumeral, hvalue,
    ofDecimal_of_whole _ (Int.natAbs_ne_zero.mpr hn), Option.getD_some]

/-- **The literal of an integer** stands for it if it has 64 bits, and otherwise for a number that
rounds to the same binary number. -/
theorem exists_exactValue?_numberLiteral
    (hfinite : (Parser.numberLiteral numeral).isFinite = true) :
    ∃ written value, (Parser.numberLiteral numeral).lexeme = .number written ∧
      exactValue? written = some value ∧ (FitsInt64 n → value = n) ∧
      (¬FitsInt64 n → Binary64.RoundAlike n value) := by
  by_cases hfits : FitsInt64 n
  · rw [Parser.numberLiteral_of_fits h hfits]
    exact ⟨_, _, rfl, exactValue?_toString n, fun _ => rfl, absurd hfits⟩
  · rw [Parser.numberLiteral_of_not_fits h hfits] at hfinite ⊢
    have hrank : Binary64.nearestRank n.natAbs 1 < Binary64.ranks := by
      by_contra hge
      rw [Binary64.ofRank, dif_neg hge] at hfinite
      cases hfinite
    rw [Binary64.ofRank, dif_pos hrank]
    refine ⟨_, _, rfl, exactValue?_write .literal _ _, fun hin => absurd hin hfits, fun _ => ?_⟩
    exact Binary64.roundAlike_shortest _ (ne_zero_of_not_fits hfits) hrank

end

/-! ## The condition on the rows of a join -/

/-- The text reads as the query, which no other query does that can be recovered from its text. -/
structure Sql.ReadsAs (sql : String) (q : Sql.Query) : Prop where
  recoverable : q.IsRecoverable
  lexemes_eq : Reader.lexemes? sql.toList = some (Sql.lexemes q.tokens)

theorem Sql.ReadsAs.unique {sql : String} {q q' : Sql.Query} (h : ReadsAs sql q)
    (h' : ReadsAs sql q') : q = q' := by
  have hread := h.lexemes_eq.symm.trans h'.lexemes_eq
  exact Sql.Query.eq_of_lexemes_eq h.recoverable h'.recoverable (Option.some.inj hread)

/-- The condition that the text has on the rows of a join compares a joined column with the
numeral. -/
def FiltersWith (sql : String) (index : Nat) (written : String) : Prop :=
  ∃ q selector rows comparison column literal, Sql.ReadsAs sql q ∧
    (Emission.innerName index selector, rows) ∈ q.ctes ∧
    rows.condition =
      some (.compare comparison (.ofTable Emission.joined column) (.literal literal)) ∧
    literal.lexeme = .number written

namespace Emission

theorem condition_innerQuery (b : BaseEvent) (j : JoinedEvent) :
    (innerQuery b j).condition = j.filter.map filterCondition := by
  unfold innerQuery
  split <;> rfl

/-- The rows of a join are found under one name only. -/
theorem mem_ctes_innerName_iff {d : Dataset} {i : Nat} {r : JoinedEvent} (h : d.joins[i]? = some r)
    {selector : Selector} {rows : Sql.Query} :
    (innerName i selector, rows) ∈ ctes d ↔
      innerName i selector = innerName i r.selector ∧ rows = innerQuery d.base r := by
  constructor
  · intro hmem
    -- The names of the base queries and of the grouped rows are others.
    rcases List.mem_cons.mp hmem with heq | hmem
    · exact absurd (Prod.mk.inj heq).1 (innerName_ne (by decide))
    rcases List.mem_cons.mp hmem with heq | hmem
    · exact absurd (Prod.mk.inj heq).1 (innerName_ne (by decide))
    obtain ⟨⟨r', k⟩, hr', hmem⟩ := List.mem_flatMap.mp hmem
    simp only [joinCtes_eq, List.mem_pair, Prod.mk.injEq] at hmem
    rcases hmem with ⟨hname, hrows⟩ | ⟨hname, -⟩
    · obtain rfl := innerName_inj hname
      rw [List.mem_zipIdx_iff_getElem?] at hr'
      cases h.symm.trans hr'
      exact ⟨hname, hrows⟩
    · exact absurd hname.symm (joinName_ne_innerName _ _ _)
  · rintro ⟨hname, rfl⟩
    rw [hname]
    obtain ⟨before, after, hctes, -⟩ := exists_ctes_eq (List.mem_zipIdx_iff_getElem?.mpr h)
    simp [hctes]

end Emission

/-- **The condition on the rows of a join is its filter**, with the literal that the filter has. -/
theorem Dataset.filtersWith_iff {d : Dataset} (h : d.LiteralsFinite) (layout : Sql.Layout)
    {i : Nat} {r : JoinedEvent} (hr : d.joins[i]? = some r) {f : ResolvedFilter}
    (hf : r.filter = some f) {written : String} :
    FiltersWith (d.toSql layout) i written ↔ f.literal.lexeme = .number written := by
  have hreads : Sql.ReadsAs (d.toSql layout) d.toQuery :=
    ⟨d.isRecoverable_toQuery h, d.lexemes?_toSql h layout⟩
  have hcondition : (Emission.innerQuery d.base r).condition =
      some (Emission.filterCondition f) := by
    rw [Emission.condition_innerQuery, hf, Option.map_some]
  constructor
  · rintro ⟨q, selector, rows, comparison, column, literal, hq, hmem, hrows, hwritten⟩
    obtain rfl := hq.unique hreads
    obtain ⟨-, rfl⟩ := (Emission.mem_ctes_innerName_iff hr).mp hmem
    rw [hcondition] at hrows
    cases hrows
    exact hwritten
  · intro hwritten
    have hmem := (Emission.mem_ctes_innerName_iff hr).mpr ⟨rfl, rfl⟩
    exact ⟨_, _, _, _, _, _, hreads, hmem, hcondition, hwritten⟩

/-! ## Integers from the text of a query to its SQL -/

section
variable {catalog : Catalog} {layout : Sql.Layout} {text sql : String} {d : Dataset}
  (h : compile catalog layout text = .ok (d, sql))
include h

/-- The filter of a derivation has its numeral in the SQL as the literal that it is read as. -/
theorem filtersWith_iff_of_compile {lexemes : List Lexeme}
    (hlex : Source.lex text.toList = .ok lexemes) {t : QueryTree} (ht : t.lexemes = lexemes)
    {i : Nat} {j : JoinTree} (hj : t.joins[i]? = some j) {f : FilterTree} (hf : j.filter = some f)
    {numeral : String} {place : ByteRange} (hl : f.literal = .number numeral place) :
    (Parser.numberLiteral numeral).isFinite = true ∧ ∀ written, FiltersWith sql i written ↔
      (Parser.numberLiteral numeral).lexeme = .number written := by
  obtain ⟨q, hq, -, hd, rfl⟩ := compile_eq_ok_iff.mp h
  obtain ⟨t', ht', hknown⟩ := Query.exists_tree_of_parse hlex hq
  -- Tokens have one derivation, so the query was read from this tree.
  obtain rfl := QueryTree.lexemes_inj (ht.trans ht'.symm)
  rw [Query.parse_eq_ok hlex ht hknown] at hq
  cases hq
  have hclause : (t.described.map (Source.span text.toList)).joins[i]? =
      some (j.described.map (Source.span text.toList)) := by
    simp [Query.map, QueryTree.described, hj]
  obtain ⟨r, hr, hlowered⟩ := exists_getElem?_of_forall₂ (Query.toDataset_eq_ok_iff.mp hd).2 hclause
  obtain ⟨-, -, -, -, -, -, -, hfilter⟩ := Lowering.join_eq_ok_iff.mp hlowered
  have hwritten : (j.described.map (Source.span text.toList)).filter =
      some (f.described.map (Source.span text.toList)) := by
    simp [JoinClause.map, JoinTree.described, hf]
  rw [hwritten] at hfilter
  cases hresolved : r.filter with
  | none =>
    rw [hresolved] at hfilter
    cases hfilter
  | some x =>
    rw [hresolved] at hfilter
    obtain ⟨hx⟩ := hfilter
    obtain ⟨hfinite, -, -, -, hliteral⟩ := Lowering.filter_eq_ok_iff.mp hx
    have hnumber : (f.described.map (Source.span text.toList)).literal.value =
        Parser.numberLiteral numeral := by
      simp [Filter.map, FilterTree.described, hl, LiteralTree.described, Located.map]
    rw [hnumber] at hfinite hliteral
    refine ⟨hfinite, fun written => ?_⟩
    rw [Dataset.filtersWith_iff (Query.literalsFinite_of_toDataset hd) layout hr hresolved,
      hliteral]

/-- **Integers of 64 bits keep their value in the SQL.** A text that is compiled has a derivation,
and each of its filters that compares with an integer in digits is written into the SQL with one
numeral. Read as an exact decimal number, this is the integer if it has 64 bits, and otherwise a
number of the same sign that rounds to the same binary number. -/
theorem integer_filters_written : ∃ lexemes t, Source.lex text.toList = .ok lexemes ∧
    QueryTree.Derives t lexemes ∧
    ∀ (i : Nat) (j : JoinTree) (f : FilterTree) (numeral : String) (place : ByteRange) (n : Int),
      t.joins[i]? = some j → j.filter = some f → f.literal = .number numeral place →
      Denotes numeral n →
      ∃ written value, (∀ w, FiltersWith sql i w ↔ w = written) ∧ exactValue? written = some value ∧
        (FitsInt64 n → value = n) ∧ (¬FitsInt64 n → Binary64.RoundAlike n value) := by
  obtain ⟨q, hq, -⟩ := compile_eq_ok_iff.mp h
  obtain ⟨lexemes, hlex⟩ := Query.exists_lexemes_of_parse hq
  obtain ⟨t, ht, -⟩ := Query.exists_tree_of_parse hlex hq
  refine ⟨lexemes, t, hlex, QueryTree.derives_iff.mpr ht, ?_⟩
  intro i j f numeral place n hj hf hl hn
  obtain ⟨hfinite, hiff⟩ := filtersWith_iff_of_compile h hlex ht hj hf hl
  obtain ⟨written, value, hwritten, hvalue⟩ := exists_exactValue?_numberLiteral hn hfinite
  refine ⟨written, value, fun w => ?_, hvalue⟩
  rw [hiff, hwritten, Sql.Lexeme.number.injEq, eq_comm]

end

/-- The orders after the first one with more than a certain amount. -/
def ordersAbove (numeral : String) : String :=
  "select first order_placed (amount as amount) " ++
    "join after order_placed (count(event_id) as orders filter(amount > " ++ numeral ++ "))"

def aboveFilter (numeral : String) : FilterTree where
  word := ⟨96, 102⟩
  lparen := ⟨102, 103⟩
  column := ⟨"amount", ⟨103, 109⟩⟩
  comparison := ⟨.gt, ⟨110, 111⟩⟩
  literal := .number numeral ⟨112, 112 + numeral.length⟩
  rparen := ⟨112 + numeral.length, 113 + numeral.length⟩

def aboveJoin (numeral : String) : JoinTree where
  word := ⟨45, 49⟩
  qualifier := ⟨.after, ⟨50, 55⟩⟩
  event := .omitted ⟨"order_placed", ⟨56, 68⟩⟩
  lparen := ⟨69, 70⟩
  entities := none
  columns := .last (.aggregation ⟨"count", ⟨70, 75⟩⟩ ⟨75, 76⟩ ⟨"event_id", ⟨76, 84⟩⟩ ⟨84, 85⟩
    ⟨86, 88⟩ ⟨"orders", ⟨89, 95⟩⟩) none
  filter := some (aboveFilter numeral)
  rparen := ⟨113 + numeral.length, 114 + numeral.length⟩

def aboveTree (numeral : String) : QueryTree where
  select := ⟨⟨0, 6⟩, .first ⟨7, 12⟩ ⟨"order_placed", ⟨13, 25⟩⟩, ⟨26, 27⟩,
    .last (.reference ⟨"amount", ⟨27, 33⟩⟩ ⟨34, 36⟩ ⟨"amount", ⟨37, 43⟩⟩) none, ⟨43, 44⟩⟩
  joins := [aboveJoin numeral]

theorem exists_compile_of_toBool {catalog : Catalog} {text : String}
    (h : (compileDataset catalog text).toBool = true) (layout : Sql.Layout) :
    ∃ d, compile catalog layout text = .ok (d, d.toSql layout) := by
  cases hdataset : compileDataset catalog text with
  | error e =>
    rw [hdataset] at h
    cases h
  | ok d =>
    refine ⟨d, ?_⟩
    rw [compile, hdataset]
    rfl

theorem orders_above_minus_42 : ∃ d sql written,
    compile .demo .compact (ordersAbove "-0042") = .ok (d, sql) ∧
      Denotes "-0042" (-42) ∧ (∀ w, FiltersWith sql 0 w ↔ w = written) ∧
      exactValue? written = some (-42) := by
  have hread : (compileDataset .demo (ordersAbove "-0042")).toBool = true ∧
      Source.lex (ordersAbove "-0042").toList = .ok (aboveTree "-0042").lexemes := by
    decide +kernel
  obtain ⟨hok, hlex⟩ := hread
  obtain ⟨d, hd⟩ := exists_compile_of_toBool hok .compact
  have hdigits : IsDigits "0042".toList := ⟨by decide, List.all_eq_true.mp rfl⟩
  have hn : Denotes "-0042" (-42) := ⟨true, _, hdigits, rfl, by decide⟩
  obtain ⟨lexemes, t, hlex', ht, hall⟩ := integer_filters_written hd
  cases hlex.symm.trans hlex'
  obtain rfl := QueryTree.lexemes_inj ht.lexemes_eq
  obtain ⟨written, value, hwritten, hvalue, hfits, -⟩ := hall 0 _ _ _ _ _ rfl rfl rfl hn
  rw [hfits ⟨by norm_num, by norm_num⟩] at hvalue
  exact ⟨d, _, written, hd, hn, hwritten, by simpa using hvalue⟩

/-- The integer behind `2 ^ 63` is not what the SQL of its filter compares with. -/
theorem orders_above_changes : ∃ d sql,
    compile .demo .compact (ordersAbove "9223372036854775809") = .ok (d, sql) ∧
      Source.lex (ordersAbove "9223372036854775809").toList =
        .ok (aboveTree "9223372036854775809").lexemes ∧
      Denotes "9223372036854775809" 9223372036854775809 ∧
      ¬∃ written, FiltersWith sql 0 written ∧ exactValue? written = some 9223372036854775809 := by
  have hread : (compileDataset .demo (ordersAbove "9223372036854775809")).toBool = true ∧
      Source.lex (ordersAbove "9223372036854775809").toList =
        .ok (aboveTree "9223372036854775809").lexemes := by
    decide +kernel
  obtain ⟨hok, hlex⟩ := hread
  obtain ⟨d, hd⟩ := exists_compile_of_toBool hok .compact
  have hdigits : IsDigits "9223372036854775809".toList := ⟨by decide, List.all_eq_true.mp rfl⟩
  refine ⟨d, _, hd, hlex, ⟨false, _, hdigits, rfl, by decide⟩, ?_⟩
  rintro ⟨written, hwritten, hvalue⟩
  rw [(filtersWith_iff_of_compile hd hlex rfl rfl rfl rfl).2] at hwritten
  have hnumeral : (Parser.numberLiteral "9223372036854775809").lexeme =
      .number "9.223372036854776e18" := by decide +kernel
  rw [hnumeral] at hwritten
  cases hwritten
  have hsign : splitSign "9.223372036854776e18".toList = (false, "9.223372036854776e18".toList) :=
    rfl
  have hread : decimal? "9.223372036854776e18".toList = some ⟨9223372036854776, 3⟩ := by
    decide +kernel
  simp only [exactValue?, hsign, hread, Option.map_some, signed, Decimal.value] at hvalue
  norm_num at hvalue


end EventQuery
