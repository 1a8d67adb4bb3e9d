import EventQuery.Catalog.Demo
import EventQuery.Editor.Completion
import EventQuery.Proofs.Catalog.Extension
import EventQuery.Proofs.Dataset.Agreement
import EventQuery.Proofs.Editor.Context
import EventQuery.Proofs.Source.Boundaries

/-! Completions at the names of a valid text. The names of the catalog come in front of the words of
the language and of several completions with one label the first stays, so a name is offered as what
it stands for wherever the context calls for it (`offeredOver_of_seenOver`). That context is the one
at every name of a query, a column right behind a list of entities apart. -/

namespace EventQuery

open Grammar Editor Source EventQuery.Parser

/-! ## Labels -/

namespace Editor.Completion

theorem label_notMem_of_mem_distinct {seen : List String} {cs : List Completion} {c : Completion}
    (h : c ∈ distinct seen cs) : c.label ∉ seen := by
  induction cs generalizing seen with
  | nil => cases h
  | cons x cs ih =>
    rw [distinct] at h
    split at h
    · exact ih h
    · next hx =>
      rcases List.mem_cons.mp h with rfl | h
      · exact hx
      · exact fun hc => ih h (List.mem_cons_of_mem _ hc)

theorem nodup_distinct (seen : List String) (cs : List Completion) :
    ((distinct seen cs).map (·.label)).Nodup := by
  induction cs generalizing seen with
  | nil => exact List.nodup_nil
  | cons x cs ih =>
    rw [distinct]
    split
    · exact ih seen
    · refine List.nodup_cons.mpr ⟨?_, ih _⟩
      intro hmem
      obtain ⟨c, hc, hlabel⟩ := List.mem_map.mp hmem
      apply label_notMem_of_mem_distinct hc
      rw [hlabel]
      exact List.mem_cons_self

theorem distinct_subset (seen : List String) (cs : List Completion) : distinct seen cs ⊆ cs := by
  induction cs generalizing seen with
  | nil => exact List.Subset.refl []
  | cons x cs ih =>
    rw [distinct]
    split
    · exact List.subset_cons_of_subset x (ih seen)
    · exact List.cons_subset_cons x (ih _)

/-- A label of the front is kept with a completion of the front. -/
theorem exists_mem_distinct {seen : List String} {front : List Completion} {x : Completion}
    (hx : x ∈ front) (hseen : x.label ∉ seen) (rest : List Completion) :
    ∃ c ∈ front, c ∈ distinct seen (front ++ rest) ∧ c.label = x.label := by
  induction front generalizing seen with
  | nil => cases hx
  | cons y front ih =>
    rw [List.cons_append, distinct]
    by_cases hy : y.label ∈ seen
    · have hmem : x ∈ front := (List.mem_cons.mp hx).resolve_left fun he => hseen (he ▸ hy)
      obtain ⟨c, hc, hkept, hlabel⟩ := ih hmem hseen
      rw [if_pos hy]
      exact ⟨c, List.mem_cons_of_mem y hc, hkept, hlabel⟩
    · rw [if_neg hy]
      by_cases hlabel : y.label = x.label
      · exact ⟨y, List.mem_cons_self, List.mem_cons_self, hlabel⟩
      · have hmem : x ∈ front := (List.mem_cons.mp hx).resolve_left fun he => hlabel (he ▸ rfl)
        have hnew : x.label ∉ y.label :: seen := by
          rw [List.mem_cons, not_or]
          exact ⟨Ne.symm hlabel, hseen⟩
        obtain ⟨c, hc, hkept, hlabel⟩ := ih hmem hnew
        exact ⟨c, List.mem_cons_of_mem y hc, List.mem_cons_of_mem y hkept, hlabel⟩

end Editor.Completion

/-! ## Names that are offered -/

/-- At every position from the start to the end of a span, the name is offered as something of the
kind. -/
def Editor.OfferedOver (catalog : Catalog) (text : String) (place : Span) (name : String)
    (kind : CompletionKind) : Prop :=
  ∀ p, place.start ≤ p → p ≤ place.stop →
    ∃ c ∈ completions catalog text p, c.label = name ∧ c.kind = kind

section
variable {catalog : Catalog} {text : String} {name : String} {place : Span}

/-- What the candidates have in front is offered. -/
theorem Editor.offeredOver_of_seenOver {context : Context} {front rest : List Completion}
    {x : Completion} {kind : CompletionKind} (hseen : SeenOver text.toList name place context)
    (hcandidates : Completion.candidates catalog context = front ++ rest) (hx : x ∈ front)
    (hlabel : x.label = name) (hkind : ∀ c ∈ front, c.kind = kind) :
    OfferedOver catalog text place name kind := by
  intro p hstart hstop
  obtain ⟨hcontext, hfragment⟩ := hseen (offset text.toList p) (offset_mono _ hstart)
    (offset_mono _ hstop)
  subst hlabel
  let starts (c : Completion) : Bool :=
    (fragmentAt text.toList (offset text.toList p)).chars.isPrefixOf c.label.toList
  have hmem : x ∈ front.filter starts :=
    List.mem_filter.mpr ⟨hx, List.isPrefixOf_iff_prefix.mpr hfragment⟩
  obtain ⟨c, hc, hkept, hlabel⟩ :=
    Completion.exists_mem_distinct hmem List.not_mem_nil (rest.filter starts)
  refine ⟨c, ?_, hlabel, hkind c (List.mem_filter.mp hc).1⟩
  rwa [completions, hcontext, hcandidates, List.filter_append]

theorem Editor.offeredOver_event {selected : Bool}
    (hseen : SeenOver text.toList name place (.eventName selected))
    (hname : name ∈ catalog.eventNames) : OfferedOver catalog text place name .event :=
  offeredOver_of_seenOver hseen rfl (List.mem_map_of_mem hname) rfl
    (List.forall_mem_map.mpr fun _ _ => rfl)

section
variable {event : Event} {eventName : String} (hfound : catalog.find? eventName = some event)
include hfound

theorem Editor.candidates_clause (listed : Bool) :
    Completion.candidates catalog (.clause (some eventName) listed) =
      (if listed then Completion.entities event else Completion.columns event) ++
        (Completion.functions ++ Completion.keywords) := by
  simp only [Completion.candidates, Option.bind_some, hfound, List.append_assoc]

theorem Editor.offeredOver_column
    (hseen : SeenOver text.toList name place (.clause (some eventName) false))
    (hcolumn : (event.resolve? name).isSome) : OfferedOver catalog text place name .column := by
  obtain ⟨r, hr⟩ := Option.isSome_iff_exists.mp hcolumn
  exact offeredOver_of_seenOver hseen (candidates_clause hfound false)
    (List.mem_map_of_mem (Event.mem_columnNames_of_resolve? hr)) rfl
    (List.forall_mem_map.mpr fun _ _ => rfl)

theorem Editor.offeredOver_entity
    (hseen : SeenOver text.toList name place (.clause (some eventName) true))
    (hentity : (event.entity? name).isSome) : OfferedOver catalog text place name .entity := by
  obtain ⟨x, hx⟩ := Option.isSome_iff_exists.mp hentity
  exact offeredOver_of_seenOver hseen (candidates_clause hfound true)
    (List.mem_map_of_mem (List.mem_of_find?_eq_some hx)) (Event.name_of_entity? hx)
    (List.forall_mem_map.mpr fun _ _ => rfl)

end

end

/-! ## The names of a clause -/

/-- What a column reads. -/
def Grammar.ColumnTree.input : ColumnTree → Name
  | .reference source _ _ => source
  | .aggregation _ _ argument _ _ _ => argument

namespace Grammar

section
variable {σ : Type} (f : ByteRange → σ) (c : ColumnTree)

theorem ColumnTree.input_described : (c.described.map f).input = c.input.map f := by
  cases c <;> rfl

theorem ColumnTree.input_mem_names : c.input ∈ c.names := by
  cases c <;> simp [input, names]

variable {f c}

theorem ColumnTree.input_mem_tail (h : (c.described.map f).isAggregation = true) :
    c.input ∈ c.names.tail := by
  cases c with
  | reference source word label => cases h
  | aggregation function lparen argument rparen word label => simp [input, names]

end

theorem ColumnsTree.names_eq (c : ColumnsTree) : c.names = c.columns.flatMap ColumnTree.names := by
  induction c with
  | last column comma => rw [names, columns, List.flatMap_singleton]
  | more column comma rest ih => rw [names, columns, List.flatMap_cons, ih]

theorem ColumnsTree.input_mem_names (c : ColumnsTree) :
    ∀ column ∈ c.columns, column.input ∈ c.names := by
  intro column hcolumn
  rw [names_eq]
  exact List.mem_flatMap.mpr ⟨column, hcolumn, column.input_mem_names⟩

/-- Behind the first name are the other names of the first column and those of the others. -/
theorem ColumnsTree.tail_names_eq (c : ColumnsTree) : ∃ first, c.columns.head? = some first ∧
    c.names.tail = first.names.tail ++ c.columns.tail.flatMap ColumnTree.names := by
  have hcolumns : ∃ first rest, c.columns = first :: rest := by
    cases c <;> exact ⟨_, _, rfl⟩
  obtain ⟨first, rest, hcolumns⟩ := hcolumns
  obtain ⟨n, ns, -, hnames, -⟩ := first.exists_names
  refine ⟨first, by rw [hcolumns]; rfl, ?_⟩
  rw [names_eq, hcolumns, List.flatMap_cons, hnames]
  rfl

theorem ColumnsTree.map_described {σ : Type} (f : ByteRange → σ) (c : ColumnsTree) :
    c.described.map (·.map f) = c.columns.map fun d => d.described.map f := by
  rw [described_eq, List.map_map]
  rfl

/-- Without a list of entities all names of the columns are outside of one. -/
theorem JoinTree.nameIn_of_no_entities {j : JoinTree} (h : usingNames j.entities = []) :
    ∀ n ∈ j.columns.names, NameIn j.clause.inner n false := by
  intro n hn
  obtain ⟨m, ns, -, hnames, -⟩ := j.columns.exists_names
  have hfirst := j.nameIn_first
  have hrest := j.nameIn_columns
  rw [hnames, h] at hfirst
  rw [hnames] at hrest hn
  rcases List.mem_cons.mp hn with rfl | hn
  · exact hfirst n rfl
  · exact hrest n hn

end Grammar

/-- The names of a base selection are offered as what they stand for. -/
structure SelectClause.NamesOffered (catalog : Catalog) (text : String) (s : SelectClause Span) :
    Prop where
  event : OfferedOver catalog text s.event.place s.event.value .event
  columns : ∀ c ∈ s.columns, OfferedOver catalog text c.input.place c.input.value .column

/-- The names of a join are offered as what they stand for, but a plain column right behind a list
of entities, which may still go on there. -/
structure JoinClause.NamesOffered (catalog : Catalog) (text : String) (j : JoinClause Span) :
    Prop where
  event : OfferedOver catalog text j.event.place j.event.value .event
  entities : ∀ e ∈ j.entities, OfferedOver catalog text e.place e.value .entity
  first : ∀ c ∈ j.columns.head?, j.entities = [] ∨ c.isAggregation = true →
    OfferedOver catalog text c.input.place c.input.value .column
  columns : ∀ c ∈ j.columns.tail, OfferedOver catalog text c.input.place c.input.value .column
  filter : ∀ f ∈ j.filter, OfferedOver catalog text f.column.place f.column.value .column

section
variable {catalog : Catalog} (hcatalog : catalog.IsBuilt) {text : String}
  (ha : IsAscii text.toList) {base : Event}
include hcatalog ha

theorem Grammar.SelectTree.namesOffered {s : SelectTree} (done more : List ClauseTree)
    (hlex : lex text.toList = .ok ((done ++ s.clause :: more).flatMap ClauseTree.lexemes))
    (hfits : (s.described.map (span text.toList)).Fits catalog base) :
    (s.described.map (span text.toList)).NamesOffered catalog text where
  event := offeredOver_event (seenOver_event ha hlex) (hcatalog.mem_eventNames hfits.found)
  columns := by
    intro c hc
    have hinput := (hfits.columns c hc).input
    rw [show (s.described.map (span text.toList)).columns = _ from
      s.columns.map_described (span text.toList)] at hc
    obtain ⟨d, hd, rfl⟩ := List.mem_map.mp hc
    rw [d.input_described] at hinput ⊢
    have hname := s.nameIn_columns d.input (s.columns.input_mem_names d hd)
    exact offeredOver_column hfits.found (seenOver_of_nameIn ha hlex hname) hinput

theorem Grammar.JoinTree.namesOffered {j : JoinTree} {event : Event} (done more : List ClauseTree)
    (hlex : lex text.toList = .ok ((done ++ j.clause :: more).flatMap ClauseTree.lexemes))
    (hfits : (j.described.map (span text.toList)).Fits catalog base event) :
    (j.described.map (span text.toList)).NamesOffered catalog text := by
  obtain ⟨first, hfirst, htail⟩ := j.columns.tail_names_eq
  have hcolumns : (j.described.map (span text.toList)).columns =
      j.columns.columns.map fun d => d.described.map (span text.toList) :=
    j.columns.map_described _
  -- A column is offered where its input is not taken for an entity.
  have hoffered : ∀ d ∈ j.columns.columns, NameIn j.clause.inner d.input false →
      OfferedOver catalog text (d.described.map (span text.toList)).input.place
        (d.described.map (span text.toList)).input.value .column := by
    intro d hd hname
    have hmem : d.described.map (span text.toList) ∈
        (j.described.map (span text.toList)).columns := by
      rw [hcolumns]
      exact List.mem_map_of_mem hd
    have hinput := (hfits.columns _ hmem).input
    rw [d.input_described] at hinput ⊢
    exact offeredOver_column hfits.found (seenOver_of_nameIn ha hlex hname) hinput
  refine ⟨offeredOver_event (seenOver_event ha hlex) (hcatalog.mem_eventNames hfits.found),
    ?_, ?_, ?_, ?_⟩
  · intro e he
    have hnamed := hfits.named e he
    obtain ⟨n, hn, rfl⟩ := List.mem_map.mp he
    exact offeredOver_entity hfits.found (seenOver_of_nameIn ha hlex (j.nameIn_entities n hn))
      hnamed
  · intro c hc hplain
    rw [hcolumns, List.head?_map, hfirst] at hc
    obtain rfl := Option.some.inj hc
    have hmem : first ∈ j.columns.columns := List.mem_of_head? hfirst
    apply hoffered first hmem
    rcases hplain with hentities | haggregation
    · apply j.nameIn_of_no_entities (List.map_eq_nil_iff.mp hentities)
      exact j.columns.input_mem_names first hmem
    · apply j.nameIn_columns
      rw [htail]
      exact List.mem_append_left _ (ColumnTree.input_mem_tail haggregation)
  · intro c hc
    rw [hcolumns, ← List.map_tail] at hc
    obtain ⟨d, hd, rfl⟩ := List.mem_map.mp hc
    apply hoffered d (List.mem_of_mem_tail hd)
    apply j.nameIn_columns
    rw [htail]
    exact List.mem_append_right _ (List.mem_flatMap.mpr ⟨d, hd, d.input_mem_names⟩)
  · intro f hf
    have hinput := hfits.filter f hf
    obtain ⟨g, hg, rfl⟩ := Option.map_eq_some_iff.mp hf
    obtain ⟨t, ht, rfl⟩ := Option.map_eq_some_iff.mp hg
    exact offeredOver_column hfits.found (seenOver_of_nameIn ha hlex (j.nameIn_filter t ht)) hinput

end

/-- **Completions offer what a valid text has, each label once.** All completions start with the
fragment in front of the position. In a text without diagnostics, in ASCII characters outside quoted
texts and comments, every event, entity and column is among them as such, at all positions from its
start to its end, but for a column right behind a list of entities. -/
theorem completions_offer_valid_names (catalog : Catalog) (text : String) :
    (∀ p, ((completions catalog text p).map (·.label)).Nodup ∧
      ∀ c ∈ completions catalog text p,
        (fragmentAt text.toList (offset text.toList p)).chars <+: c.label.toList) ∧
    (catalog.IsBuilt → diagnostics catalog text = [] → IsAscii text.toList →
      ∃ q, Query.parse text = .ok q ∧ q.select.NamesOffered catalog text ∧
        ∀ j ∈ q.joins, j.NamesOffered catalog text) := by
  refine ⟨fun p => ⟨Completion.nodup_distinct [] _, fun c hc => ?_⟩, fun hcatalog h ha => ?_⟩
  · have hkept := List.mem_filter.mp (Completion.distinct_subset [] _ hc)
    exact List.isPrefixOf_iff_prefix.mp hkept.2
  · obtain ⟨q, hq, hvalid⟩ := diagnostics_eq_nil_iff.mp h
    obtain ⟨base, hfits⟩ := Query.validate_eq_ok_iff.mp hvalid
    obtain ⟨lexemes, hlex⟩ := Query.exists_lexemes_of_parse hq
    obtain ⟨t, rfl, hknown⟩ := Query.exists_tree_of_parse hlex hq
    obtain rfl := Except.ok.inj (hq.symm.trans (Query.parse_eq_ok hlex rfl hknown))
    rw [← t.lexemes_clauses] at hlex
    refine ⟨_, hq, t.select.namesOffered hcatalog ha [] _ hlex hfits.select, fun j hj => ?_⟩
    obtain ⟨event, hjoin⟩ := hfits.joins j hj
    obtain ⟨x, hx, rfl⟩ := List.mem_map.mp hj
    obtain ⟨u, hu, rfl⟩ := List.mem_map.mp hx
    obtain ⟨before, after, hjoins⟩ := List.append_of_mem hu
    refine u.namesOffered hcatalog ha (t.select.clause :: before.map JoinTree.clause)
      (after.map JoinTree.clause) ?_ hjoin
    rw [hlex, QueryTree.clauses, hjoins, List.map_append]
    rfl

/-- A list of entities, and letters beyond ASCII in a comment and in quotes. -/
def deviceText : String :=
  "select first user_signed_up (plan as plan) -- é\n" ++
    "join after user_logged_in (using user_id count(device) as n, filter(status = 'ü'))"

/-- In the middle of the column of the filter. -/
theorem status_offered_in_filter :
    diagnostics .demo deviceText = [] ∧ IsAscii deviceText.toList ∧
      ∃ c ∈ completions .demo deviceText ⟨1, 70⟩, c.label = "status" ∧ c.kind = .column := by
  have hvalid : diagnostics .demo deviceText = [] := by decide +kernel
  have hchars : deviceText.toList = _ := String.toList_append
  have hascii : IsAscii deviceText.toList := by
    rw [hchars]
    decide +kernel
  have hread : ∀ q ∈ (Query.parse deviceText).toOption, ∃ j ∈ q.joins, ∃ f ∈ j.filter,
      f.column = ⟨"status", ⟨⟨1, 68⟩, ⟨1, 74⟩⟩⟩ := by
    decide +kernel
  obtain ⟨q, hq, -, hjoins⟩ :=
    (completions_offer_valid_names .demo deviceText).2 (.unchecked _) hvalid hascii
  obtain ⟨j, hj, f, hf, hcolumn⟩ := hread q (by rw [hq]; rfl)
  have hoffered := (hjoins j hj).filter f hf
  rw [hcolumn] at hoffered
  exact ⟨hvalid, hascii, hoffered ⟨1, 70⟩ (by decide) (by decide)⟩

end EventQuery
