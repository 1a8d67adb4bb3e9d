import EventQuery.Proofs.Sql.Scope
import EventQuery.Proofs.Sql.Value
import Mathlib.Data.List.Dedup

/-! The meaning of queries as bags of rows, kept as lists. Named queries are evaluated in order, and
each sees those before it. A query is refused, before it is run, where a reference does not name
exactly one column, and where it goes beyond the expressions that are given a meaning here: plain
ones, functions of a group of rows, and window functions. -/

namespace EventQuery.Sql

abbrev Row := List (String × Value)

/-- A column that is not there reads as null. -/
def Row.value (r : Row) (column : String) : Value := (r.lookup column).getD .null

structure Relation where
  columns : List String
  rows : List Row

/-- The source tables, by the parts of their names. Columns of a table have different names, and its
rows have a value in each of them. -/
structure Database where
  table : List String → Relation
  nodup : ∀ name, (table name).columns.Nodup
  aligned : ∀ name, ∀ r ∈ (table name).rows, r.map Prod.fst = (table name).columns

/-- Columns of different names, and rows that have a value in each of them. -/
def Relation.IsTable (r : Relation) : Prop :=
  r.columns.Nodup ∧ ∀ x ∈ r.rows, x.map Prod.fst = r.columns

instance (r : Relation) : Decidable r.IsTable := inferInstanceAs (Decidable (_ ∧ _))

/-- A name that no table has stands for the empty table. -/
theorem isTable_lookup {tables : List (List String × Relation)} (h : ∀ t ∈ tables, t.2.IsTable)
    (name : List String) : ((tables.lookup name).getD ⟨[], []⟩).IsTable := by
  cases hfound : tables.lookup name with
  | none => exact ⟨List.nodup_nil, List.forall_mem_nil _⟩
  | some r =>
    obtain ⟨front, rest, rfl, -⟩ := List.lookup_eq_some_iff.mp hfound
    exact h _ (List.mem_append_right front List.mem_cons_self)

/-- The database of some tables under their names; all others are empty. -/
def Database.ofTables (tables : List (List String × Relation)) (h : ∀ t ∈ tables, t.2.IsTable) :
    Database where
  table name := (tables.lookup name).getD ⟨[], []⟩
  nodup name := (isTable_lookup h name).1
  aligned name := (isTable_lookup h name).2

/-- A row of each table that a query reads, under the name the table goes by. -/
abbrev Binding := List (String × Row)

def Binding.value (b : Binding) : Reference → Value
  | (some table, column) => Row.value ((b.lookup table).getD []) column
  | (none, column) => Row.value (b.flatMap Prod.snd) column

/-! ## Plain expressions -/

def Operator.apply : Operator → Value → Value → Value
  | .compare c => c.apply
  | .and => Value.and

mutual

/-- The value of a plain expression. -/
def Expr.scalar (b : Binding) : Expr → Value
  | .column table name => b.value (table, name)
  | .star _ => .null
  | .literal l => l.value
  | .binary left op right => op.apply (left.scalar b) (right.scalar b)
  | .call function args _ =>
    if function = "COALESCE" then ((scalars b args).find? (· ≠ .null)).getD .null else .null
  | .window .. => .null

def scalars (b : Binding) : List Expr → List Value
  | [] => []
  | e :: es => e.scalar b :: scalars b es

end

attribute [simp] Expr.scalar scalars

mutual

def Expr.isPlain : Expr → Bool
  | .column .. => true
  | .star _ => false
  | .literal _ => true
  | .binary left _ right => left.isPlain && right.isPlain
  | .call function args distinct => function = "COALESCE" && !distinct && arePlain args
  | .window .. => false

def arePlain : List Expr → Bool
  | [] => true
  | e :: es => e.isPlain && arePlain es

end

/-- A condition keeps the rows on which it is true, not those on which it is false or null. -/
def Expr.isTrue (e : Expr) (b : Binding) : Bool := e.scalar b = .boolean true

/-! ## Groups and windows -/

/-- The functions of all values of a group. -/
def setFunction? (function : String) (distinct : Bool) : Option (List Value → Value) :=
  match function, distinct with
  | "COUNT", false => some Value.count
  | "COUNT", true => some Value.countDistinct
  | "SUM", false => some Value.sum
  | "AVG", false => some Value.average
  | "MIN", false => some Value.minimum
  | "MAX", false => some Value.maximum
  | _, _ => none

def argument (args : List Expr) (b : Binding) : Value := (scalars b args).head?.getD .null

def Expr.ofGroup (group : List Binding) : Expr → Value
  | .call function args distinct =>
    match setFunction? function distinct with
    | some f => f (group.map (argument args))
    | none => (Expr.call function args distinct).scalar (group.head?.getD [])
  | e => e.scalar (group.head?.getD [])

/-- A row among those of a query, with its place among them. -/
abbrev Placed := Binding × Nat

def compareBy : List (Expr × Option Direction) → Binding → Binding → Ordering
  | [], _, _ => .eq
  | (e, some .desc) :: rest, a, b =>
    (compare (e.scalar b) (e.scalar a)).then (compareBy rest a b)
  | (e, _) :: rest, a, b => (compare (e.scalar a) (e.scalar b)).then (compareBy rest a b)

/-- The order of a window. Rows it does not tell apart are in the order of their places. -/
def precedes (order : List (Expr × Option Direction)) (p q : Placed) : Bool :=
  match compareBy order p.1 q.1 with
  | .lt => true
  | .eq => p.2 < q.2
  | .gt => false

/-- The first of some rows: none of them precedes it. -/
def firstBy (order : List (Expr × Option Direction)) (rows : List Placed) : Option Placed :=
  rows.find? fun p => rows.all fun q => !precedes order q p

def lastBy (order : List (Expr × Option Direction)) (rows : List Placed) : Option Placed :=
  rows.find? fun p => rows.all fun q => !precedes order p q

def partitionOf (rows : List Placed) (partition : List Expr) (p : Placed) : List Placed :=
  rows.filter fun q => scalars q.1 partition = scalars p.1 partition

/-- The rows a window function reads. Where there is an order and no frame, they are those up to the
current row and the ones that the order does not tell apart from it. -/
def frameOf (part : List Placed) (order : List (Expr × Option Direction)) (frame : Option Frame)
    (p : Placed) : List Placed :=
  match frame, order with
  | none, _ :: _ => part.filter fun q => compareBy order q.1 p.1 ≠ .gt
  | _, _ => part

def Expr.ofWindow (rows : List Placed) (p : Placed) : Expr → Value
  | .window (.call function args distinct) partition order frame =>
    let part := partitionOf rows partition p
    let read := frameOf part order frame p
    match function with
    | "ROW_NUMBER" => .number (1 + (part.filter fun q => precedes order q p).length : ℕ)
    | "FIRST_VALUE" => ((firstBy order read).map fun q => argument args q.1).getD .null
    | "LAST_VALUE" => ((lastBy order read).map fun q => argument args q.1).getD .null
    | _ =>
      match setFunction? function distinct with
      | some f => f (read.map fun q => argument args q.1)
      | none => .null
  | e => e.scalar p.1

/-! ## Queries -/

def TableRef.relation (db : Database) (ctes : List (String × Relation)) (t : TableRef) : Relation :=
  match t.parts with
  | [name] => (ctes.lookup name).getD (db.table [name])
  | parts => db.table parts

/-- Each row with the rows of one more table that meet the condition. In a left join a row that
meets none stays, with nulls beside it. -/
def Join.extend (relation : Relation) (j : Join) (rows : List Binding) : List Binding :=
  rows.flatMap fun b =>
    let met := (relation.rows.map fun r => b ++ [(j.table.name, r)]).filter j.condition.isTrue
    match j.kind with
    | .inner => met
    | .left =>
      if met.isEmpty then [b ++ [(j.table.name, relation.columns.map fun c => (c, .null))]]
      else met

def SelectItem.cells (value : Expr → Value) (b : Binding) (item : SelectItem) : Row :=
  match item.expr, item.label with
  | .star (some table), _ => (b.lookup table).getD []
  | .star none, _ => b.flatMap Prod.snd
  | e, some label => [(label, value e)]
  | .column table name, none => [(name, value (.column table name))]
  | e, none => [("", value e)]

namespace Query

variable (db : Database) (ctes : List (String × Relation)) (q : Query)

/-- The rows of all tables together, before groups are made of them. -/
def bindings : List Binding :=
  let start := match q.source with
    | some t => (t.relation db ctes).rows.map fun r => [(t.name, r)]
    | none => [[]]
  let joined := q.joins.foldl (fun rows j => j.extend (j.table.relation db ctes) rows) start
  joined.filter fun b => q.condition.all (·.isTrue b)

def selectRows (select : List SelectItem) (rows : List Binding) : List Row :=
  let placed := rows.zipIdx
  placed.map fun p => select.flatMap (·.cells (Expr.ofWindow placed p) p.1)

/-- One row for each group of rows that the keys do not tell apart. -/
def selectGroups (select : List SelectItem) (groups : List Expr) (rows : List Binding) :
    List Row :=
  (rows.map (scalars · groups)).dedup.map fun key =>
    let group := rows.filter fun b => scalars b groups = key
    select.flatMap (·.cells (Expr.ofGroup group) (group.head?.getD []))

def rows : List Row :=
  if q.groups.isEmpty then selectRows q.select (q.bindings db ctes)
  else selectGroups q.select q.groups (q.bindings db ctes)

/-! ## What is refused -/

def isSoundPlain (scope : Scope) (e : Expr) : Bool :=
  e.isPlain && e.references.all fun r => scope.Resolves r

def isSoundWindow (scope : Scope) : Expr → Bool
  | .window (.call function args distinct) partition order frame =>
    (args.all (isSoundPlain scope) && partition.all (isSoundPlain scope)
        && order.all fun o => isSoundPlain scope o.1)
      && (frame.all fun f => f = .wholePartition)
      && (function ∈ ["ROW_NUMBER", "FIRST_VALUE", "LAST_VALUE"]
        || (setFunction? function distinct).isSome)
  | e => isSoundPlain scope e

/-- Outside of its functions a query with groups reads only what it groups by. -/
def isSoundGroup (scope : Scope) (groups : List Expr) : Expr → Bool
  | .call function args distinct =>
    (setFunction? function distinct).isSome && args.all (isSoundPlain scope)
  | e => isSoundPlain scope e && e.references.all (· ∈ groups.flatMap (·.references))

def isSoundItem (scope : Scope) (groups : List Expr) (item : SelectItem) : Bool :=
  match item.expr, item.label with
  | .star (some table), none => groups.isEmpty && table ∈ scope.map Prod.fst
  | .star none, none => groups.isEmpty
  | .star _, some _ => false
  | e, _ => if groups.isEmpty then isSoundWindow scope e else isSoundGroup scope groups e

/-- The condition of a join reads the tables up to its own. -/
def areSoundJoins (columns : TableRef → List String) : Scope → List Join → Bool
  | _, [] => true
  | scope, j :: rest =>
    let scope := scope ++ [(j.table.name, columns j.table)]
    isSoundPlain scope j.condition && areSoundJoins columns scope rest

/-- No name is given twice, and all expressions are sound. -/
def isSound (source : List String → List String) (ctes : Scope) (q : Query) : Bool :=
  let scope := q.scope source ctes
  ((q.ctes.map Prod.fst).Nodup : Bool) && ((scope.map Prod.fst).Nodup : Bool)
    && areSoundJoins (·.columns source ctes)
      (q.source.toList.map fun t => (t.name, t.columns source ctes)) q.joins
    && q.condition.all (isSoundPlain scope)
    && q.groups.all (isSoundPlain scope)
    && q.select.all (isSoundItem scope q.groups)

mutual

/-- The relation of a query that is not refused. -/
def run : Query → List (String × Relation) → Relation
  | ⟨named, select, table, joins, condition, groups⟩, outer =>
    let ctes := runCtes named outer
    let q : Query := ⟨named, select, table, joins, condition, groups⟩
    let columns := q.bodyColumns (fun name => (db.table name).columns)
      (ctes.map fun (name, r) => (name, r.columns))
    ⟨columns, q.rows db ctes⟩

/-- The named queries with their relations, the last one first. -/
def runCtes : List (String × Query) → List (String × Relation) → List (String × Relation)
  | [], outer => outer
  | (name, q) :: rest, outer => runCtes rest ((name, q.run outer) :: outer)

end

attribute [simp] run runCtes

/-- Every query in a query is sound where it stands. -/
def IsMeaningful (source : List String → List String) (q : Query) : Prop :=
  ∀ p ∈ q.parts source [], p.2.isSound source p.1 = true

instance (source : List String → List String) (q : Query) : Decidable (q.IsMeaningful source) :=
  inferInstanceAs (Decidable (∀ _ ∈ _, _))

/-- The relation of a query over a database. -/
def eval : Option Relation :=
  if q.IsMeaningful fun name => (db.table name).columns then some (run db q []) else none

end Query

end EventQuery.Sql
