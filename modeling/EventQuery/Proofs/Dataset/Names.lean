import EventQuery.Dataset.Emission
import Mathlib.Data.List.Nodup
import Std.Data.String.ToNat

/-! The names of the named queries of a dataset. They are different from each other, and none is a
name in several parts, so that a table of such a name is the named query and nothing else. -/

namespace EventQuery

/-! ## Names in one part -/

namespace Text

theorem splitChars_ne_nil (separator : Char) (cs : List Char) :
    splitChars separator cs ≠ [] := by
  cases cs with
  | nil => simp [splitChars]
  | cons c cs =>
    unfold splitChars
    split
    · simp
    · split <;> simp

/-- A text without the separator is its only piece. -/
theorem splitChars_of_notMem {separator : Char} {cs : List Char} (h : separator ∉ cs) :
    splitChars separator cs = [cs] := by
  induction cs with
  | nil => rfl
  | cons c cs ih =>
    rw [List.mem_cons, not_or] at h
    obtain ⟨hc, hcs⟩ := h
    rw [splitChars, if_neg (Ne.symm hc), ih hcs]

theorem eq_of_splitChars_eq_singleton {separator : Char} {cs piece : List Char}
    (h : splitChars separator cs = [piece]) : cs = piece := by
  induction cs generalizing piece with
  | nil => simpa [splitChars] using h
  | cons c cs ih =>
    rw [splitChars] at h
    split at h
    · exact absurd (List.cons.inj h).2 (splitChars_ne_nil separator cs)
    · split at h
      · next hnil => exact absurd hnil (splitChars_ne_nil separator cs)
      · next first rest hsplit =>
        obtain ⟨rfl, rfl⟩ := List.cons.inj h
        rw [ih hsplit]

theorem split_of_notMem {separator : Char} {s : String} (h : separator ∉ s.toList) :
    split separator s = [s] := by
  simp [split, splitChars_of_notMem h]

/-- A name that is split in one piece is that piece. -/
theorem eq_of_split_eq_singleton {separator : Char} {s piece : String}
    (h : split separator s = [piece]) : s = piece := by
  obtain ⟨cs, hcs, rfl⟩ := List.map_eq_singleton_iff.mp h
  rw [← eq_of_splitChars_eq_singleton hcs, String.ofList_toList]

end Text

namespace Emission

/-! ## The names of joins -/

/-- What the name of the rows of a join has behind the name of the join. -/
def innerSuffix : Selector → String
  | .omitted => "_rows"
  | _ => "_ranked"

def innerName (index : Nat) (s : Selector) : String := joinName index ++ innerSuffix s

/-- The rows of a join before there is one of them for each key. -/
def innerQuery (b : BaseEvent) (j : JoinedEvent) : Sql.Query :=
  match j.selector with
  | .omitted => joinedRows b j
  | _ => joinedRanked b j

/-- The rows of a join, one for each key. -/
def outerQuery (index : Nat) (j : JoinedEvent) : Sql.Query :=
  match j.selector with
  | .omitted => grouped (innerName index j.selector) j
  | _ => rankOne (innerName index j.selector)

/-- A join has two named queries whatever its selector, the outer one reading the inner one. -/
theorem joinCtes_eq (b : BaseEvent) (index : Nat) (j : JoinedEvent) :
    joinCtes b index j =
      [(innerName index j.selector, innerQuery b j), (joinName index, outerQuery index j)] := by
  unfold joinCtes innerName innerQuery outerQuery
  cases j.selector <;> rfl

theorem innerQuery_of_eq {b : BaseEvent} {j : JoinedEvent} (ho : j.selector = .omitted) :
    innerQuery b j = joinedRows b j := by
  rw [innerQuery, ho]

theorem innerQuery_of_ne {b : BaseEvent} {j : JoinedEvent} (ho : j.selector ≠ .omitted) :
    innerQuery b j = joinedRanked b j := by
  unfold innerQuery
  split
  · next h => exact absurd h ho
  · rfl

theorem outerQuery_of_eq {index : Nat} {j : JoinedEvent} (ho : j.selector = .omitted) :
    outerQuery index j = grouped (innerName index j.selector) j := by
  rw [outerQuery, ho]

theorem outerQuery_of_ne {index : Nat} {j : JoinedEvent} (ho : j.selector ≠ .omitted) :
    outerQuery index j = rankOne (innerName index j.selector) := by
  unfold outerQuery
  split
  · next h => exact absurd h ho
  · rfl

/-- Joins are numbered from one. -/
theorem toList_joinName (index : Nat) :
    (joinName index).toList = "join_".toList ++ Nat.toDigits 10 (index + 1) := by
  simp [joinName]

/-- The digits in the name of a join end where the suffix starts. -/
private theorem takeWhile_digits {n : Nat} {suffix : List Char}
    (h : suffix = [] ∨ suffix.head? = some '_') :
    (Nat.toDigits 10 n ++ suffix).takeWhile (· ≠ '_') = Nat.toDigits 10 n := by
  have hd : ∀ c ∈ Nat.toDigits 10 n, decide (c ≠ '_') = true := by
    intro c hc
    have : c ≠ '_' := by rintro rfl; exact Nat.underscore_not_in_toDigits hc
    simpa using this
  rw [List.takeWhile_append_of_pos hd]
  rcases h with rfl | h
  · simp
  · cases suffix with
    | nil => simp
    | cons c cs => simp_all

/-- The digits of the number end at the suffix, so that number and suffix are both recovered. -/
theorem joinName_append_inj {i k : Nat} {s t : String}
    (hs : s.toList = [] ∨ s.toList.head? = some '_')
    (ht : t.toList = [] ∨ t.toList.head? = some '_')
    (h : joinName i ++ s = joinName k ++ t) : i = k ∧ s = t := by
  have h := congrArg String.toList h
  simp only [String.toList_append, toList_joinName, List.append_assoc,
    List.append_cancel_left_eq] at h
  have hdigits : Nat.toDigits 10 (i + 1) = Nat.toDigits 10 (k + 1) := by
    rw [← takeWhile_digits hs, h, takeWhile_digits ht]
  rw [hdigits, List.append_cancel_left_eq] at h
  refine ⟨?_, String.toList_inj.mp h⟩
  have hrepr : (i + 1).repr = (k + 1).repr := by
    rw [← String.toList_inj, Nat.toList_repr, Nat.toList_repr, hdigits]
  exact Nat.succ.inj (Nat.repr_injective hrepr)

theorem innerSuffix_head (s : Selector) : (innerSuffix s).toList.head? = some '_' := by
  cases s <;> rfl

/-- Joins at different places have different names. -/
theorem joinName_inj {i k : Nat} (h : joinName i = joinName k) : i = k :=
  (joinName_append_inj (s := "") (t := "") (.inl rfl) (.inl rfl) (by simpa using h)).1

theorem innerName_inj {i k : Nat} {s t : Selector} (h : innerName i s = innerName k t) : i = k :=
  (joinName_append_inj (.inr (innerSuffix_head s)) (.inr (innerSuffix_head t)) h).1

/-- The inner query of a join is never named as a join is. -/
theorem joinName_ne_innerName (i k : Nat) (s : Selector) : joinName i ≠ innerName k s := by
  intro h
  have := (joinName_append_inj (s := "") (.inl rfl) (.inr (innerSuffix_head s))
    (by simpa [innerName] using h)).2
  cases s <;> simp [innerSuffix] at this

/-- A name that does not start as those of joins do. -/
def IsApart (name : String) : Prop := ¬"join_".toList <+: name.toList

instance (name : String) : Decidable (IsApart name) := inferInstanceAs (Decidable (¬_))

/-- A name that does not begin as those of joins do is no name of a join. -/
theorem joinName_ne {i : Nat} {name : String} (h : IsApart name) : joinName i ≠ name := by
  rintro rfl
  exact h ⟨_, (toList_joinName i).symm⟩

theorem innerName_ne {i : Nat} {s : Selector} {name : String} (h : IsApart name) :
    innerName i s ≠ name := by
  rintro rfl
  refine h (.trans ⟨_, (toList_joinName i).symm⟩ ?_)
  rw [innerName, String.toList_append]
  exact List.prefix_append _ _

private theorem dot_notMem_joinName (i : Nat) : '.' ∉ (joinName i).toList := by
  rw [toList_joinName, List.mem_append, not_or]
  refine ⟨by decide, fun h => ?_⟩
  exact absurd (Nat.isDigit_of_mem_toDigits (by decide) (by decide) h) (by decide)

/-- No name of a join is split at a full stop. -/
theorem split_joinName (i : Nat) : Text.split '.' (joinName i) = [joinName i] :=
  Text.split_of_notMem (dot_notMem_joinName i)

theorem split_innerName (i : Nat) (s : Selector) :
    Text.split '.' (innerName i s) = [innerName i s] := by
  apply Text.split_of_notMem
  rw [innerName, String.toList_append, List.mem_append, not_or]
  exact ⟨dot_notMem_joinName i, by cases s <;> decide⟩

/-! ## All names -/

/-- The names that a list of joins takes. -/
def joinNames (joins : List (JoinedEvent × Nat)) : List String :=
  joins.flatMap fun p => [innerName p.2 p.1.selector, joinName p.2]

/-- The named queries of a list of joins. -/
def ctesOf (b : BaseEvent) (joins : List (JoinedEvent × Nat)) : List (String × Sql.Query) :=
  joins.flatMap fun p => joinCtes b p.2 p.1

theorem names_ctesOf (b : BaseEvent) (joins : List (JoinedEvent × Nat)) :
    (ctesOf b joins).map Prod.fst = joinNames joins := by
  simp [ctesOf, joinNames, List.map_flatMap, joinCtes_eq]

theorem mem_joinNames_iff {joins : List (JoinedEvent × Nat)} {name : String} :
    name ∈ joinNames joins ↔
      ∃ p ∈ joins, name = innerName p.2 p.1.selector ∨ name = joinName p.2 := by
  simp [joinNames]

/-- The named queries of the base rows and of some joins. -/
def ctesUpTo (d : Dataset) (joins : List (JoinedEvent × Nat)) : List (String × Sql.Query) :=
  (baseRanked, rankedBase d.base) :: (base, rankOne baseRanked) :: ctesOf d.base joins

theorem ctes_eq_ctesUpTo {d : Dataset} : ctes d = ctesUpTo d d.joins.zipIdx := rfl

/-- The named queries of a dataset in the order they are written. -/
theorem names_ctes (d : Dataset) :
    (ctes d).map Prod.fst = baseRanked :: base :: joinNames d.joins.zipIdx := by
  rw [ctes_eq_ctesUpTo, ctesUpTo, List.map_cons, List.map_cons, names_ctesOf]

/-- The names of joins from any number on are different from each other. -/
theorem nodup_joinNames (joins : List JoinedEvent) (start : Nat) :
    (joinNames (joins.zipIdx start)).Nodup := by
  rw [joinNames, List.nodup_flatMap]
  constructor
  · intro p _
    simpa using (joinName_ne_innerName _ _ _).symm
  · have hlt : (joins.zipIdx start).Pairwise fun p q => p.2 < q.2 := by
      rw [← List.pairwise_map (f := Prod.snd) (R := (· < ·)), List.zipIdx_map_snd]
      exact List.pairwise_lt_range'
    refine hlt.imp fun {p q} h => ?_
    simp only [Function.onFun, List.disjoint_cons_left, List.disjoint_nil_left, List.mem_cons,
      List.not_mem_nil, or_false, not_or, and_true]
    exact ⟨⟨fun e => (Nat.ne_of_lt h) (innerName_inj e), (joinName_ne_innerName _ _ _).symm⟩,
      joinName_ne_innerName _ _ _, fun e => (Nat.ne_of_lt h) (joinName_inj e)⟩

theorem nodup_joinName_zipIdx {joins : List JoinedEvent} :
    (joins.zipIdx.map fun p => joinName p.2).Nodup := by
  have hindices : (joins.zipIdx.map Prod.snd).Nodup := by
    rw [List.zipIdx_map_snd]
    exact List.nodup_range'
  have hnames := hindices.map fun i k => joinName_inj
  rwa [List.map_map] at hnames

theorem notMem_joinNames {name : String} (h : IsApart name)
    (joins : List (JoinedEvent × Nat)) : name ∉ joinNames joins := by
  rw [mem_joinNames_iff]
  rintro ⟨p, -, he | he⟩
  · exact innerName_ne h he.symm
  · exact joinName_ne h he.symm

/-- No two named queries of a dataset have the same name. -/
theorem nodup_names_ctes (d : Dataset) : ((ctes d).map Prod.fst).Nodup := by
  rw [names_ctes, List.nodup_cons, List.nodup_cons, List.mem_cons, not_or]
  exact ⟨⟨by decide, notMem_joinNames (by decide) _⟩, notMem_joinNames (by decide) _,
    nodup_joinNames d.joins 0⟩

/-- The named queries around those of one join. -/
theorem exists_ctes_eq {d : Dataset} {j : JoinedEvent} {i : Nat} (h : (j, i) ∈ d.joins.zipIdx) :
    ∃ before after, ctes d =
        (ctesUpTo d before ++ [(innerName i j.selector, innerQuery d.base j)]) ++
          (joinName i, outerQuery i j) :: after ∧
      joinName i ∉ after.map Prod.fst := by
  obtain ⟨before, after, hsplit⟩ := List.append_of_mem h
  have hctes : ctes d = (ctesUpTo d before ++ [(innerName i j.selector, innerQuery d.base j)]) ++
      (joinName i, outerQuery i j) :: ctesOf d.base after := by
    rw [ctes_eq_ctesUpTo, hsplit]
    simp [ctesUpTo, ctesOf, joinCtes_eq]
  refine ⟨before, _, hctes, ?_⟩
  have hnodup := nodup_names_ctes d
  rw [hctes, List.map_append, List.map_cons] at hnodup
  exact (List.nodup_cons.mp (List.nodup_append.mp hnodup).2.1).1

/-! ## The result -/

/-- The final query selects the columns of the base, then those of each join in order. -/
theorem results_eq {d : Dataset} : results d =
    d.base.columns.map (fun c => item (.ofTable base c.physical) c.label)
      ++ d.joins.zipIdx.flatMap fun p => p.1.columns.map (resultItem (joinName p.2)) := rfl

theorem joins_query {d : Dataset} :
    (query d).joins = d.joins.zipIdx.map fun p => resultJoin d.base (joinName p.2) := rfl

end Emission

/-- No joined table is hidden by a named query. -/
def Dataset.TablesFree (d : Dataset) : Prop :=
  ∀ j ∈ d.joins, j.event.table ∉ (Emission.ctes d).map Prod.fst

instance (d : Dataset) : Decidable d.TablesFree := inferInstanceAs (Decidable (∀ _ ∈ _, _))

end EventQuery
