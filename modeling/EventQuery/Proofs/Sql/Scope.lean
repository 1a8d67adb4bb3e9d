import EventQuery.Sql.Query

/-! What the names in a query stand for: the columns of the tables it reads, the columns it gives,
and the references to columns in it. A reference is sound where it names exactly one column. -/

namespace EventQuery.Sql

/-- A column as an expression names it, by the label of its table if that is given. -/
abbrev Reference := Option String × String

/-- Names with the columns of the tables that go by them. -/
abbrev Scope := List (String × List String)

mutual

def Expr.references : Expr → List Reference
  | .column table name => [(table, name)]
  | .star _ => []
  | .literal _ => []
  | .binary left _ right => left.references ++ right.references
  | .call _ args _ => referencesOf args
  | .window function partition order _ =>
    function.references ++ referencesOf partition ++ orderReferences order

def referencesOf : List Expr → List Reference
  | [] => []
  | e :: es => e.references ++ referencesOf es

def orderReferences : List (Expr × Option Direction) → List Reference
  | [] => []
  | (e, _) :: rest => e.references ++ orderReferences rest

end

attribute [simp] Expr.references referencesOf orderReferences

/-- The references of a list are those of its members. -/
theorem mem_referencesOf_iff {es : List Expr} {r : Reference} :
    r ∈ referencesOf es ↔ ∃ e ∈ es, r ∈ e.references := by
  induction es with
  | nil => simp [referencesOf]
  | cons e es ih => simp [referencesOf, ih]

theorem mem_orderReferences_iff {order : List (Expr × Option Direction)} {r : Reference} :
    r ∈ orderReferences order ↔ ∃ o ∈ order, r ∈ o.1.references := by
  induction order with
  | nil => simp [orderReferences]
  | cons o order ih =>
    obtain ⟨e, direction⟩ := o
    simp [orderReferences, ih]

/-- All references of an expression are of one kind. -/
def Expr.RefersOnly (kind : Reference → Prop) (e : Expr) : Prop := ∀ r ∈ e.references, kind r

section
variable {kind : Reference → Prop} {e f : Expr}

theorem Expr.refersOnly_ofTable {table column : String} :
    (ofTable table column).RefersOnly kind ↔ kind (some table, column) := by
  simp [RefersOnly, ofTable, references]

theorem Expr.refersOnly_literal (l : Literal) : (literal l).RefersOnly kind := nofun

theorem Expr.refersOnly_binary {op : Operator} (he : e.RefersOnly kind) (hf : f.RefersOnly kind) :
    (binary e op f).RefersOnly kind := by
  intro r hr
  rw [references, List.mem_append] at hr
  exact hr.elim (he r) (hf r)

theorem Expr.refersOnly_call {function : String} {args : List Expr} {distinct : Bool}
    (h : ∀ e ∈ args, e.RefersOnly kind) : (call function args distinct).RefersOnly kind := by
  intro r hr
  rw [references, mem_referencesOf_iff] at hr
  obtain ⟨e, he, hr⟩ := hr
  exact h e he r hr

theorem Expr.refersOnly_window {partition : List Expr} {order : List (Expr × Option Direction)}
    {frame : Option Frame} (he : e.RefersOnly kind) (hp : ∀ e ∈ partition, e.RefersOnly kind)
    (ho : ∀ o ∈ order, o.1.RefersOnly kind) :
    (window e partition order frame).RefersOnly kind := by
  intro r hr
  rw [references, List.mem_append, List.mem_append, mem_referencesOf_iff,
    mem_orderReferences_iff] at hr
  obtain (hr | ⟨e, he, hr⟩) | ⟨o, hmem, hr⟩ := hr
  · exact he r hr
  · exact hp e he r hr
  · exact ho o hmem r hr

end

/-- The columns that a table label, or no label, leaves to choose from. -/
def Scope.within (scope : Scope) : Option String → List String
  | some table => (scope.filter (·.1 = table)).flatMap Prod.snd
  | none => scope.flatMap Prod.snd

/-- The reference names one column and no more. -/
def Scope.Resolves (scope : Scope) (r : Reference) : Prop := (scope.within r.1).count r.2 = 1

instance (scope : Scope) (r : Reference) : Decidable (scope.Resolves r) :=
  inferInstanceAs (Decidable (_ = _))

/-- The name a table goes by in a query. -/
def TableRef.name (t : TableRef) : String := t.label.getD (t.parts.getLast?.getD "")

/-- A table of one name that has no label goes by this name. -/
theorem TableRef.name_ofName {name : String} (hs : Text.split '.' name = [name]) :
    (ofName name).name = name := by
  simp [TableRef.name, ofName, hs]

/-- The columns of a table: a named query of this name hides a source table. -/
def TableRef.columns (source : List String → List String) (ctes : Scope) (t : TableRef) :
    List String :=
  match t.parts with
  | [name] => (ctes.lookup name).getD (source [name])
  | parts => source parts

/-- The columns an item of a select list gives. -/
def SelectItem.columns (scope : Scope) (item : SelectItem) : List String :=
  match item.expr, item.label with
  | .star table, _ => scope.within table
  | _, some label => [label]
  | .column _ name, none => [name]
  | _, none => [""]

namespace Query

def tables (q : Query) : List TableRef := q.source.toList ++ q.joins.map (·.table)

/-- The tables of a query with their columns, without the named queries in front of it. -/
def scope (source : List String → List String) (ctes : Scope) (q : Query) : Scope :=
  q.tables.map fun t => (t.name, t.columns source ctes)

/-- All references in a query, without those in the named queries in front of it. -/
def references (q : Query) : List Reference :=
  q.select.flatMap (·.expr.references) ++ q.joins.flatMap (·.condition.references)
    ++ q.condition.toList.flatMap (·.references) ++ q.groups.flatMap (·.references)

/-- The references of a query are in what it selects, its joins, its condition and its groups. -/
theorem forall_references {q : Query} {kind : Reference → Prop}
    (hselect : ∀ item ∈ q.select, item.expr.RefersOnly kind)
    (hjoins : ∀ j ∈ q.joins, j.condition.RefersOnly kind)
    (hcondition : ∀ e ∈ q.condition, e.RefersOnly kind)
    (hgroups : ∀ e ∈ q.groups, e.RefersOnly kind) : ∀ r ∈ q.references, kind r := by
  intro r hr
  simp only [references, List.mem_append, List.mem_flatMap, Option.mem_toList] at hr
  obtain ((⟨item, hitem, hr⟩ | ⟨j, hj, hr⟩) | ⟨e, he, hr⟩) | ⟨e, he, hr⟩ := hr
  · exact hselect item hitem r hr
  · exact hjoins j hj r hr
  · exact hcondition e he r hr
  · exact hgroups e he r hr

def bodyColumns (source : List String → List String) (ctes : Scope) (q : Query) : List String :=
  q.select.flatMap (·.columns (q.scope source ctes))

mutual

/-- The columns a query gives. -/
def columns (source : List String → List String) : Query → Scope → List String
  | ⟨ctes, select, table, joins, condition, groups⟩, outer =>
    bodyColumns source (cteColumns source ctes outer)
      ⟨ctes, select, table, joins, condition, groups⟩

/-- The named queries with their columns, the last one first. -/
def cteColumns (source : List String → List String) : List (String × Query) → Scope → Scope
  | [], outer => outer
  | (name, q) :: rest, outer => cteColumns source rest ((name, q.columns source outer) :: outer)

end

mutual

/-- A query with all queries in it, each with the named queries that it can see. -/
def parts (source : List String → List String) : Query → Scope → List (Scope × Query)
  | ⟨ctes, select, table, joins, condition, groups⟩, outer =>
    cteParts source ctes outer
      ++ [(cteColumns source ctes outer, ⟨ctes, select, table, joins, condition, groups⟩)]

def cteParts (source : List String → List String) :
    List (String × Query) → Scope → List (Scope × Query)
  | [], _ => []
  | (name, q) :: rest, outer =>
    q.parts source outer ++ cteParts source rest ((name, q.columns source outer) :: outer)

end

attribute [simp] columns cteColumns parts cteParts

variable {source : List String → List String} {q : Query} {outer : Scope}

theorem columns_of_ctes_eq_nil (h : q.ctes = []) :
    q.columns source outer = q.bodyColumns source outer := by
  obtain ⟨ctes, select, table, joins, condition, groups⟩ := q
  cases h
  rw [columns, cteColumns]

/-- A query without named queries is the only query in it. -/
theorem parts_of_ctes_eq_nil (h : q.ctes = []) : q.parts source outer = [(outer, q)] := by
  obtain ⟨ctes, select, table, joins, condition, groups⟩ := q
  cases h
  rw [parts, cteParts, cteColumns, List.nil_append]

theorem parts_eq :
    q.parts source outer =
      cteParts source q.ctes outer ++ [(cteColumns source q.ctes outer, q)] := by
  obtain ⟨ctes, select, table, joins, condition, groups⟩ := q
  rw [parts]

/-- Later named queries see those in front of them. -/
theorem cteColumns_append (before after : List (String × Query)) (outer : Scope) :
    cteColumns source (before ++ after) outer =
      cteColumns source after (cteColumns source before outer) := by
  induction before generalizing outer with
  | nil => simp [cteColumns]
  | cons p before ih => simp [cteColumns, ih]

/-- A name that is not given keeps what it stood for. -/
theorem lookup_cteColumns_of_notMem {ctes : List (String × Query)} {name : String}
    (h : name ∉ ctes.map Prod.fst) :
    (cteColumns source ctes outer).lookup name = outer.lookup name := by
  induction ctes generalizing outer with
  | nil => rw [cteColumns]
  | cons p ctes ih =>
    rw [List.map_cons, List.mem_cons, not_or] at h
    rw [cteColumns, ih h.2, List.lookup_cons, beq_false_of_ne h.1]

/-- A name stands for the last query that is given it. -/
theorem lookup_cteColumns {before after : List (String × Query)} {name : String}
    (h : name ∉ after.map Prod.fst) :
    (cteColumns source (before ++ (name, q) :: after) outer).lookup name =
      some (q.columns source (cteColumns source before outer)) := by
  rw [cteColumns_append, cteColumns, lookup_cteColumns_of_notMem h, List.lookup_cons_self]

theorem lookup_cteColumns_concat (before : List (String × Query)) (name : String) (q : Query) :
    (cteColumns source (before ++ [(name, q)]) outer).lookup name =
      some (q.columns source (cteColumns source before outer)) :=
  lookup_cteColumns nofun

end Query

end EventQuery.Sql
