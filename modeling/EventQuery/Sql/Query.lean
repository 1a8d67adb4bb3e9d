import EventQuery.Sql.Expr

/-! SQL queries and their tokens. -/

namespace EventQuery.Sql

/-- An output column, with its name if it is given one. -/
structure SelectItem where
  expr : Expr
  label : Option String

/-- A table by the parts of its name, with the name it goes by if it is given one. -/
structure TableRef where
  parts : List String
  label : Option String
deriving DecidableEq

/-- The table of a name whose parts are divided by dots. -/
def TableRef.ofName (name : String) : TableRef := ⟨Text.split '.' name, none⟩

inductive JoinKind where
  | inner
  | left
deriving DecidableEq

structure Join where
  kind : JoinKind
  table : TableRef
  condition : Expr

/-- A query with the named queries in front of it. -/
structure Query where
  ctes : List (String × Query)
  select : List SelectItem
  source : Option TableRef
  joins : List Join
  condition : Option Expr
  groups : List Expr

def labelTokens : Option String → List Token
  | none => []
  | some label => [.space, .keyword .AS, .space, .ident label]

def SelectItem.tokens (item : SelectItem) : List Token := item.expr.tokens ++ labelTokens item.label

def TableRef.tokens (table : TableRef) : List Token :=
  .qualified table.parts :: labelTokens table.label

def JoinKind.keyword : JoinKind → Keyword
  | .inner => .INNER
  | .left => .LEFT

def Join.tokens (j : Join) : List Token :=
  [.keyword j.kind.keyword, .space, .keyword .JOIN, .space] ++ j.table.tokens
    ++ [.space, .keyword .ON, .space] ++ j.condition.tokens

def selectTokens : List SelectItem → List Token
  | [] => []
  | [item] => item.tokens
  | item :: next :: rest =>
    item.tokens ++ [.comma, .newline, .indent 1] ++ selectTokens (next :: rest)

namespace Query

def empty : Query := ⟨[], [], none, [], none, []⟩

/-- The query with one more condition on its rows. -/
def filter (q : Query) (condition : Expr) : Query :=
  { q with
    condition := some <|
      match q.condition with
      | some existing => existing.and condition
      | none => condition }

/-- The tokens behind the named queries. -/
def bodyTokens (q : Query) : List Token :=
  .keyword .SELECT :: (if q.select.isEmpty then [] else [.newline, .indent 1])
    ++ selectTokens q.select
    ++ (match q.source with
      | some table => [.newline, .keyword .FROM, .space] ++ table.tokens
      | none => [])
    ++ q.joins.flatMap (.newline :: ·.tokens)
    ++ (match q.condition with
      | some e => [.newline, .keyword .WHERE, .space] ++ e.tokens
      | none => [])
    ++ (if q.groups.isEmpty then []
      else [.newline, .keyword .GROUPBY, .space] ++ exprsTokens q.groups)

mutual

def tokens : Query → List Token
  | ⟨ctes, select, source, joins, condition, groups⟩ =>
    (if ctes.isEmpty then [] else [.keyword .WITH, .space] ++ cteTokens ctes ++ [.newline])
      ++ bodyTokens ⟨[], select, source, joins, condition, groups⟩

def cteTokens : List (String × Query) → List Token
  | [] => []
  | [(name, q)] =>
    [.ident name, .space, .keyword .AS, .space, .lparen, .newline] ++ q.tokens
      ++ [.newline, .rparen]
  | (name, q) :: next :: rest =>
    [.ident name, .space, .keyword .AS, .space, .lparen, .newline] ++ q.tokens
      ++ [.newline, .rparen, .comma, .newline] ++ cteTokens (next :: rest)

end

def toSql (layout : Layout) (q : Query) : String := render layout q.tokens

end Query

end EventQuery.Sql
