import EventQuery.Number.Reading
import EventQuery.Outcome
import EventQuery.Query.Basic
import EventQuery.Source.Offset
import EventQuery.Source.Token.Lexer

/-! Reading a query from its tokens. One token of look-ahead decides everywhere but in an entity
list, where a name followed by a parenthesis or `as` is the first column. Each reading gives a value
and the tokens behind it, or the tokens at whose front it is stuck. A function that is not known
does not end the reading: its name is kept, and reported once the clause around it is settled. -/

namespace EventQuery.Parser

open Outcome

/-- The tokens not yet read. -/
abbrev Rest := List Lexeme

abbrev Name := Located ByteRange String

/-- The tokens left, and the unknown functions met before them. -/
structure Progress where
  rest : Rest
  unknown : List Name
deriving DecidableEq

def Progress.after (unknown : List Name) (p : Progress) : Progress := ⟨p.rest, unknown ++ p.unknown⟩

def name : Rest → Except Rest (Name × Rest)
  | ⟨.ident text, place⟩ :: rest => .ok (⟨text, place⟩, rest)
  | rest => .error rest

def token (t : Token) : Rest → Except Rest (ByteRange × Rest)
  | [] => .error []
  | ⟨t', place⟩ :: rest => if t' = t then .ok (place, rest) else .error (⟨t', place⟩ :: rest)

/-- An optional selector and an event name. -/
def selectedEvent : Rest → Except Rest ((Located ByteRange Selector × Name) × Rest)
  | ⟨.keyword .first, place⟩ :: rest => do
    let (event, rest) ← name rest
    return ((⟨.first, place⟩, event), rest)
  | ⟨.keyword .last, place⟩ :: rest => do
    let (event, rest) ← name rest
    return ((⟨.last, place⟩, event), rest)
  | rest => do
    let (event, rest) ← name rest
    return ((⟨.omitted, event.place.atStart⟩, event), rest)

def qualifier : Rest → Except Rest (Located ByteRange Qualifier × Rest)
  | ⟨.keyword .before, place⟩ :: rest => .ok (⟨.before, place⟩, rest)
  | ⟨.keyword .after, place⟩ :: rest => .ok (⟨.after, place⟩, rest)
  | rest => .error rest

def comparison : Rest → Except Rest (Located ByteRange Comparison × Rest)
  | ⟨.comparison c, place⟩ :: rest => .ok (⟨c, place⟩, rest)
  | rest => .error rest

/-- A numeral without a point is an integer if it fits 64 bits. -/
def numberLiteral (numeral : String) : Literal :=
  let real := Literal.real ((Numeral.binary64? numeral).getD .nan)
  if numeral.toList.contains '.' then real
  else
    match Numeral.int64? numeral with
    | some n => .integer n
    | none => real

def literal : Rest → Except Rest (Located ByteRange Literal × Rest)
  | ⟨.quoted contents, place⟩ :: rest => .ok (⟨.text contents, place⟩, rest)
  | ⟨.number numeral, place⟩ :: rest => .ok (⟨numberLiteral numeral, place⟩, rest)
  | rest => .error rest

/-- An aggregation whose function may be unknown; an unknown one is kept apart. -/
def aggregation (function argument label : Name) : Column ByteRange × List Name :=
  let place := function.place.through label.place
  match Aggregate.ofName? function.value with
  | some f => (.aggregation ⟨f, function.place⟩ argument label place, [])
  | none => (.aggregation ⟨.count, function.place⟩ argument label place, [function])

def column (rest : Rest) : Except Rest ((Column ByteRange × List Name) × Rest) := do
  let (first, rest) ← name rest
  match rest with
  | ⟨.keyword .asName, _⟩ :: rest =>
    let (label, rest) ← name rest
    return ((.reference first label (first.place.through label.place), []), rest)
  | ⟨.lparen, _⟩ :: rest =>
    let (argument, rest) ← name rest
    let (_, rest) ← token .rparen rest
    let (_, rest) ← token (.keyword .asName) rest
    let (label, rest) ← name rest
    return (aggregation first argument label, rest)
  | rest => .error rest

theorem length_lt_of_name {rest : Rest} {x : Name × Rest} (h : name rest = .ok x) :
    x.2.length < rest.length := by
  unfold name at h
  split at h
  · cases h
    exact Nat.lt_succ_self _
  · cases h

theorem length_lt_of_token {t : Token} {rest : Rest} {x : ByteRange × Rest}
    (h : token t rest = .ok x) : x.2.length < rest.length := by
  unfold token at h
  split at h
  · cases h
  · split at h
    · cases h
      exact Nat.lt_succ_self _
    · cases h

theorem length_lt_of_column {rest : Rest} {x : (Column ByteRange × List Name) × Rest}
    (h : column rest = .ok x) : x.2.length < rest.length := by
  obtain ⟨⟨first, rest₁⟩, hfirst, h⟩ := bind_eq_ok_iff.mp h
  refine Nat.lt_of_le_of_lt ?_ (length_lt_of_name hfirst)
  dsimp only at h
  split at h
  · obtain ⟨⟨label, rest₂⟩, hlabel, h⟩ := bind_eq_ok_iff.mp h
    cases h
    exact Nat.le_succ_of_le (Nat.le_of_lt (length_lt_of_name hlabel))
  · obtain ⟨⟨argument, rest₂⟩, hargument, h⟩ := bind_eq_ok_iff.mp h
    obtain ⟨⟨rparen, rest₃⟩, hrparen, h⟩ := bind_eq_ok_iff.mp h
    obtain ⟨⟨word, rest₄⟩, hword, h⟩ := bind_eq_ok_iff.mp h
    obtain ⟨⟨label, rest₅⟩, hlabel, h⟩ := bind_eq_ok_iff.mp h
    have h₂ := length_lt_of_name hargument
    have h₃ := length_lt_of_token hrparen
    have h₄ := length_lt_of_token hword
    have h₅ := length_lt_of_name hlabel
    cases h
    simp only [List.length_cons] at h₂ h₃ h₄ h₅ ⊢
    omega
  · cases h

/-- One or more columns, each but the last followed by a comma; the last may be too. -/
def columns (rest : Rest) : Except Progress (List (Column ByteRange) × Progress) :=
  match h : column rest with
  | .error stuck => .error ⟨stuck, []⟩
  | .ok ((c, unknown), ⟨.comma, _⟩ :: ⟨.ident text, place⟩ :: more) =>
    have := length_lt_of_column h
    match columns (⟨.ident text, place⟩ :: more) with
    | .error p => .error (p.after unknown)
    | .ok (cs, p) => .ok (c :: cs, p.after unknown)
  | .ok ((c, unknown), ⟨.comma, _⟩ :: more) => .ok ([c], ⟨more, unknown⟩)
  | .ok ((c, unknown), rest) => .ok ([c], ⟨rest, unknown⟩)
termination_by rest.length
decreasing_by
  simp at this ⊢
  omega

/-- A name here begins a column and is no entity. -/
def beginsColumn : Rest → Bool
  | ⟨.lparen, _⟩ :: _ => true
  | ⟨.keyword .asName, _⟩ :: _ => true
  | _ => false

/-- The names up to the first column, each with a comma behind it or not. -/
def entities : Rest → List Name × Rest
  | ⟨.ident text, place⟩ :: ⟨.comma, _⟩ :: rest =>
    let (more, rest) := entities rest
    (⟨text, place⟩ :: more, rest)
  | ⟨.ident text, place⟩ :: rest =>
    if beginsColumn rest then ([], ⟨.ident text, place⟩ :: rest)
    else
      let (more, rest) := entities rest
      (⟨text, place⟩ :: more, rest)
  | rest => ([], rest)

/-- Where a list of entities or the column behind it is stuck although its first name fits: at the
token that made the name a column. -/
def pastName : Rest → Rest
  | ⟨.ident text, place⟩ :: rest => if beginsColumn rest then rest else ⟨.ident text, place⟩ :: rest
  | rest => rest

/-- A column's first name and the token behind it are followed by a name. -/
def secondName : Rest → Bool
  | _ :: _ :: ⟨.ident _, _⟩ :: _ => true
  | _ => false

/-- The columns of a join, and the entities in front of them if there is a list. -/
def joinColumns : Rest → Except Progress ((List Name × List (Column ByteRange)) × Progress)
  | ⟨.keyword .usingList, _⟩ :: rest =>
    match entities rest with
    | ([], rest) => .error ⟨pastName rest, []⟩
    | (names, rest) =>
      if secondName rest then (columns rest).map fun (cs, p) => ((names, cs), p)
      else .error ⟨pastName rest, []⟩
  | rest => (columns rest).map fun (cs, p) => (([], cs), p)

def filter : Rest → Except Rest (Option (Filter ByteRange) × Rest)
  | ⟨.keyword .filter, start⟩ :: rest => do
    let (_, rest) ← token .lparen rest
    let (column, rest) ← name rest
    let (comparison, rest) ← comparison rest
    let (literal, rest) ← literal rest
    let (stop, rest) ← token .rparen rest
    return (some ⟨column, comparison, literal, start.through stop⟩, rest)
  | rest => .ok (none, rest)

/-- The base selection. The unknown functions of its columns are kept also when it is stuck. -/
def select (rest : Rest) : Except Progress (SelectClause ByteRange × Progress) := do
  let (start, rest) ← (token (.keyword .select) rest).mapError (⟨·, []⟩)
  let ((selector, event), rest) ← (selectedEvent rest).mapError (⟨·, []⟩)
  let (_, rest) ← (token .lparen rest).mapError (⟨·, []⟩)
  let (columns, p) ← columns rest
  let (stop, rest) ← (token .rparen p.rest).mapError (⟨·, p.unknown⟩)
  return (⟨selector, event, columns, start.through stop⟩, ⟨rest, p.unknown⟩)

/-- A join behind its first word. The unknown functions of a join that is stuck are dropped. -/
def join (start : ByteRange) (rest : Rest) :
    Except Rest ((JoinClause ByteRange × List Name) × Rest) := do
  let (qualifier, rest) ← qualifier rest
  let ((selector, event), rest) ← selectedEvent rest
  let (_, rest) ← token .lparen rest
  let ((entities, columns), p) ← (joinColumns rest).mapError (·.rest)
  let (filter, rest) ← filter p.rest
  let (stop, rest) ← token .rparen rest
  return ((⟨qualifier, selector, event, entities, columns, filter, start.through stop⟩, p.unknown),
    rest)

theorem length_lt_of_selectedEvent {rest : Rest} {x : (Located ByteRange Selector × Name) × Rest}
    (h : selectedEvent rest = .ok x) : x.2.length < rest.length := by
  unfold selectedEvent at h
  split at h
  case h_1 | h_2 =>
    obtain ⟨⟨event, rest⟩, hevent, h⟩ := bind_eq_ok_iff.mp h
    cases h
    exact Nat.lt_succ_of_lt (length_lt_of_name hevent)
  case h_3 =>
    obtain ⟨⟨event, rest⟩, hevent, h⟩ := bind_eq_ok_iff.mp h
    cases h
    exact length_lt_of_name hevent

theorem length_lt_of_qualifier {rest : Rest} {x : Located ByteRange Qualifier × Rest}
    (h : qualifier rest = .ok x) : x.2.length < rest.length := by
  unfold qualifier at h
  split at h
  case h_1 | h_2 =>
    cases h
    exact Nat.lt_succ_self _
  case h_3 => cases h

theorem length_lt_of_comparison {rest : Rest} {x : Located ByteRange Comparison × Rest}
    (h : comparison rest = .ok x) : x.2.length < rest.length := by
  unfold comparison at h
  split at h
  · cases h
    exact Nat.lt_succ_self _
  · cases h

theorem length_lt_of_literal {rest : Rest} {x : Located ByteRange Literal × Rest}
    (h : literal rest = .ok x) : x.2.length < rest.length := by
  unfold literal at h
  split at h
  case h_1 | h_2 =>
    cases h
    exact Nat.lt_succ_self _
  case h_3 => cases h

theorem length_lt_of_columns {rest : Rest} {x : List (Column ByteRange) × Progress}
    (h : columns rest = .ok x) : x.2.rest.length < rest.length := by
  fun_induction columns rest generalizing x with
  | case1 => cases h
  | case2 => cases h
  | case3 rest c unknown p text place more hcolumn hlt cs q hcolumns ih =>
    have hmore := ih hcolumns
    cases h
    exact Nat.lt_trans hmore (Nat.lt_of_succ_lt hlt)
  | case4 rest c unknown p more _ hcolumn =>
    cases h
    exact Nat.lt_of_succ_lt (length_lt_of_column hcolumn)
  | case5 rest c unknown more _ _ hcolumn =>
    cases h
    exact length_lt_of_column hcolumn

theorem length_entities_le (rest : Rest) : (entities rest).2.length ≤ rest.length := by
  fun_induction entities rest with
  | case1 text place p rest more rest' hentities ih =>
    rw [hentities] at ih
    exact Nat.le_succ_of_le (Nat.le_succ_of_le ih)
  | case2 => exact Nat.le_refl _
  | case3 text place rest _ _ more rest' hentities ih =>
    rw [hentities] at ih
    exact Nat.le_succ_of_le ih
  | case4 => exact Nat.le_refl _

theorem length_lt_of_joinColumns {rest : Rest}
    {x : (List Name × List (Column ByteRange)) × Progress} (h : joinColumns rest = .ok x) :
    x.2.rest.length < rest.length := by
  unfold joinColumns at h
  split at h
  · next place rest =>
    have hle := length_entities_le rest
    split at h
    · cases h
    · next names rest' _ hentities =>
      rw [hentities] at hle
      split at h
      · obtain ⟨⟨cs, p⟩, hcolumns, rfl⟩ := map_eq_ok_iff.mp h
        exact Nat.lt_succ_of_lt (Nat.lt_of_lt_of_le (length_lt_of_columns hcolumns) hle)
      · cases h
  · obtain ⟨⟨cs, p⟩, hcolumns, rfl⟩ := map_eq_ok_iff.mp h
    exact length_lt_of_columns hcolumns

theorem length_le_of_filter {rest : Rest} {x : Option (Filter ByteRange) × Rest}
    (h : filter rest = .ok x) : x.2.length ≤ rest.length := by
  unfold filter at h
  split at h
  · obtain ⟨⟨lparen, rest₁⟩, hlparen, h⟩ := bind_eq_ok_iff.mp h
    obtain ⟨⟨column, rest₂⟩, hcolumn, h⟩ := bind_eq_ok_iff.mp h
    obtain ⟨⟨c, rest₃⟩, hc, h⟩ := bind_eq_ok_iff.mp h
    obtain ⟨⟨l, rest₄⟩, hl, h⟩ := bind_eq_ok_iff.mp h
    obtain ⟨⟨rparen, rest₅⟩, hrparen, h⟩ := bind_eq_ok_iff.mp h
    have h₁ := length_lt_of_token hlparen
    have h₂ := length_lt_of_name hcolumn
    have h₃ := length_lt_of_comparison hc
    have h₄ := length_lt_of_literal hl
    have h₅ := length_lt_of_token hrparen
    cases h
    simp only [List.length_cons] at h₁ h₂ h₃ h₄ h₅ ⊢
    omega
  · cases h
    exact Nat.le_refl _

theorem length_lt_of_join {start : ByteRange} {rest : Rest}
    {x : (JoinClause ByteRange × List Name) × Rest} (h : join start rest = .ok x) :
    x.2.length < rest.length := by
  obtain ⟨⟨q, rest₁⟩, hq, h⟩ := bind_eq_ok_iff.mp h
  obtain ⟨⟨⟨selector, event⟩, rest₂⟩, hevent, h⟩ := bind_eq_ok_iff.mp h
  obtain ⟨⟨lparen, rest₃⟩, hlparen, h⟩ := bind_eq_ok_iff.mp h
  obtain ⟨⟨⟨names, cs⟩, p⟩, hcolumns, h⟩ := bind_eq_ok_iff.mp h
  obtain ⟨⟨f, rest₄⟩, hf, h⟩ := bind_eq_ok_iff.mp h
  obtain ⟨⟨rparen, rest₅⟩, hrparen, h⟩ := bind_eq_ok_iff.mp h
  have h₁ := length_lt_of_qualifier hq
  have h₂ := length_lt_of_selectedEvent hevent
  have h₃ := length_lt_of_token hlparen
  have h₄ := length_lt_of_joinColumns (mapError_eq_ok_iff.mp hcolumns)
  have h₅ := length_le_of_filter hf
  have h₆ := length_lt_of_token hrparen
  cases h
  dsimp only at h₁ h₂ h₃ h₄ h₅ h₆ ⊢
  omega

/-- Joins up to the end of the tokens. -/
def joins : Rest → Except Progress (List (JoinClause ByteRange) × List Name)
  | [] => .ok ([], [])
  | ⟨.keyword .join, start⟩ :: rest =>
    match h : join start rest with
    | .error stuck => .error ⟨stuck, []⟩
    | .ok ((j, unknown), rest') =>
      have := length_lt_of_join h
      match joins rest' with
      | .error p => .error (p.after unknown)
      | .ok (js, unknown') => .ok (j :: js, unknown ++ unknown')
  | rest => .error ⟨rest, []⟩
termination_by rest => rest.length
decreasing_by
  simp at this ⊢
  omega

/-- A whole query, and the unknown functions in it. -/
def query (rest : Rest) : Except Progress (Query ByteRange × List Name) := do
  let (select, p) ← select rest
  let (joins, unknown) ← (joins p.rest).mapError (·.after p.unknown)
  let stop := (joins.getLast?.map (·.place)).getD select.place
  return (⟨select, joins, select.place.through stop⟩, p.unknown ++ unknown)

/-- The complaint about the token where the reading is stuck. Past the last token it starts at the
end of the text and stops at the end of that token. -/
def complaint (textEnd : Nat) (lexemes stuck : Rest) : SyntaxError ByteRange :=
  match stuck with
  | ⟨t, place⟩ :: _ => ⟨.unexpected (.token t), place⟩
  | [] => ⟨.unexpected .endOfInput, ⟨textEnd, (lexemes.getLast?.map (·.place.stop)).getD textEnd⟩⟩

/-- The query that the tokens of a text spell. An unknown function is reported rather than the place
where the reading is stuck behind it. -/
def parseLexemes (textEnd : Nat) (lexemes : List Lexeme) :
    Except (SyntaxError ByteRange) (Query ByteRange) :=
  match query lexemes with
  | .ok (q, []) => .ok q
  | .ok (_, f :: _) => .error ⟨.unknownFunction f.value, f.place⟩
  | .error ⟨_, f :: _⟩ => .error ⟨.unknownFunction f.value, f.place⟩
  | .error ⟨stuck, []⟩ => .error (complaint textEnd lexemes stuck)

/-- The query of a text, with byte ranges for places. -/
def parseBytes (text : List Char) : Except (SyntaxError ByteRange) (Query ByteRange) :=
  match Source.lex text with
  | .error e => .error e
  | .ok lexemes => parseLexemes (Text.byteSize text) lexemes

end EventQuery.Parser

namespace EventQuery

/-- The query of a text, with lines and columns for places. -/
def Query.parse (text : String) : Except (SyntaxError Span) (Query Span) :=
  let chars := text.toList
  match Parser.parseBytes chars with
  | .ok q => .ok (q.map (Source.span chars))
  | .error e => .error (e.map (Source.span chars))

end EventQuery
