import EventQuery.Sql.Token

/-! SQL expressions and their tokens. Conditions are written without parentheses. -/

namespace EventQuery.Sql

inductive Operator where
  | compare (c : Comparison)
  | and
deriving DecidableEq

def Operator.token : Operator → Token
  | .compare c => .comparison c
  | .and => .keyword .AND

inductive Direction where
  | asc
  | desc
deriving DecidableEq

/-- An end of a window frame. -/
inductive Bound where
  | unboundedPreceding
  | unboundedFollowing
deriving DecidableEq

structure Frame where
  start : Bound
  stop : Bound
deriving DecidableEq

def Frame.wholePartition : Frame := ⟨.unboundedPreceding, .unboundedFollowing⟩

inductive Expr where
  | column (table : Option String) (name : String)
  | star (table : Option String)
  | literal (l : Literal)
  | binary (left : Expr) (op : Operator) (right : Expr)
  | call (function : String) (args : List Expr) (distinct : Bool)
  | window (function : Expr) (partition : List Expr) (order : List (Expr × Option Direction))
      (frame : Option Frame)

/-- A table name and the dot behind it. -/
def tableTokens : Option String → List Token
  | none => []
  | some table => [.ident table, .dot]

def directionTokens : Option Direction → List Token
  | none => []
  | some .asc => [.space, .keyword .ASC]
  | some .desc => [.space, .keyword .DESC]

def Bound.tokens : Bound → List Token
  | .unboundedPreceding => [.keyword .UNBOUNDED, .space, .keyword .PRECEDING]
  | .unboundedFollowing => [.keyword .UNBOUNDED, .space, .keyword .FOLLOWING]

def Frame.tokens (f : Frame) : List Token :=
  [.keyword .ROWS, .space, .keyword .BETWEEN, .space] ++ f.start.tokens
    ++ [.space, .keyword .AND, .space] ++ f.stop.tokens

/-- The parts of a window that are there, with spaces between them. -/
def spaced : List (List Token) → List Token
  | [] => []
  | [part] => part
  | part :: rest => part ++ .space :: spaced rest

mutual

def Expr.tokens : Expr → List Token
  | .column table name => tableTokens table ++ [.ident name]
  | .star table => tableTokens table ++ [.star]
  | .literal l => [.literal l]
  | .binary left op right => left.tokens ++ [.space, op.token, .space] ++ right.tokens
  | .call function args distinct =>
    [.function function, .lparen] ++ (if distinct then [.keyword .DISTINCT, .space] else [])
      ++ exprsTokens args ++ [.rparen]
  | .window function partition order frame =>
    function.tokens ++ [.space, .keyword .OVER, .space, .lparen]
      ++ spaced
        ((if partition.isEmpty then []
            else [.keyword .PARTITIONBY :: .space :: exprsTokens partition])
          ++ (if order.isEmpty then [] else [.keyword .ORDERBY :: .space :: orderTokens order])
          ++ (frame.map (·.tokens)).toList)
      ++ [.rparen]

/-- Expressions with commas between them. -/
def exprsTokens : List Expr → List Token
  | [] => []
  | [e] => e.tokens
  | e :: f :: rest => e.tokens ++ [.comma, .space] ++ exprsTokens (f :: rest)

def orderTokens : List (Expr × Option Direction) → List Token
  | [] => []
  | [(e, direction)] => e.tokens ++ directionTokens direction
  | (e, direction) :: f :: rest =>
    e.tokens ++ directionTokens direction ++ [.comma, .space] ++ orderTokens (f :: rest)

end

namespace Expr

def ofTable (table name : String) : Expr := .column (some table) name

def compare (c : Comparison) (left right : Expr) : Expr := .binary left (.compare c) right

def and (left right : Expr) : Expr := .binary left .and right

def integer (n : Int) : Expr := .literal (.integer n)

def apply (function : String) (args : List Expr) : Expr := .call function args false

def count (e : Expr) : Expr := apply "COUNT" [e]

def countDistinct (e : Expr) : Expr := .call "COUNT" [e] true

def sum (e : Expr) : Expr := apply "SUM" [e]

def avg (e : Expr) : Expr := apply "AVG" [e]

def min (e : Expr) : Expr := apply "MIN" [e]

def max (e : Expr) : Expr := apply "MAX" [e]

def coalesce (es : List Expr) : Expr := apply "COALESCE" es

def rowNumber : Expr := apply "ROW_NUMBER" []

def firstValue (e : Expr) : Expr := apply "FIRST_VALUE" [e]

def lastValue (e : Expr) : Expr := apply "LAST_VALUE" [e]

/-- A function over a window. A frame needs an order and is dropped without one. -/
def overWindow (function : Expr) (partition : List Expr) (order : List (Expr × Option Direction))
    (frame : Option Frame) : Expr :=
  .window function partition order (if order.isEmpty then none else frame)

end Expr

end EventQuery.Sql
