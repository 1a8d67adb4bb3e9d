import EventQuery.Number.Layout
import EventQuery.Query.Basic
import EventQuery.Text.LetterCase
import EventQuery.Text.Split

/-! The tokens of SQL text, and their rendering on several lines or on one. -/

namespace EventQuery.Sql

inductive Layout where
  /-- A clause a line. -/
  | pretty
  /-- All on one line. -/
  | compact
deriving DecidableEq

inductive Keyword where
  | SELECT
  | FROM
  | WHERE
  | AND
  | AS
  | ON
  | JOIN
  | INNER
  | LEFT
  | GROUPBY
  | ORDERBY
  | ASC
  | DESC
  | DISTINCT
  | WITH
  | OVER
  | PARTITIONBY
  | ROWS
  | BETWEEN
  | UNBOUNDED
  | PRECEDING
  | FOLLOWING
deriving DecidableEq

def Keyword.text : Keyword → String
  | .SELECT => "SELECT"
  | .FROM => "FROM"
  | .WHERE => "WHERE"
  | .AND => "AND"
  | .AS => "AS"
  | .ON => "ON"
  | .JOIN => "JOIN"
  | .INNER => "INNER"
  | .LEFT => "LEFT"
  | .GROUPBY => "GROUP BY"
  | .ORDERBY => "ORDER BY"
  | .ASC => "ASC"
  | .DESC => "DESC"
  | .DISTINCT => "DISTINCT"
  | .WITH => "WITH"
  | .OVER => "OVER"
  | .PARTITIONBY => "PARTITION BY"
  | .ROWS => "ROWS"
  | .BETWEEN => "BETWEEN"
  | .UNBOUNDED => "UNBOUNDED"
  | .PRECEDING => "PRECEDING"
  | .FOLLOWING => "FOLLOWING"

inductive Token where
  | keyword (k : Keyword)
  | comparison (c : Comparison)
  | comma
  | dot
  | star
  | lparen
  | rparen
  | space
  | newline
  | indent (depth : Nat)
  | ident (name : String)
  /-- A name in several parts. -/
  | qualified (parts : List String)
  | literal (l : Literal)
  /-- The name of a function, written in capitals. -/
  | function (name : String)
deriving DecidableEq

/-- The text with each quote in it written twice. -/
def double (quote : Char) : List Char → List Char
  | [] => []
  | c :: cs => if c = quote then quote :: quote :: double quote cs else c :: double quote cs

/-- The text between quotes. -/
def enclose (quote : Char) (cs : List Char) : List Char := quote :: double quote cs ++ [quote]

def quoteName (name : String) : List Char := enclose '"' name.toList

def comparisonText : Comparison → String
  | .ne => "<>"
  | c => c.text

def literalChars : Literal → List Char
  | .text s => enclose '\'' s.toList
  | .integer n => (toString n).toList
  | .real x => (NumberLayout.literal.write x).toList

/-- The quoted parts of a name with dots between them. -/
def qualifiedChars : List String → List Char
  | [] => []
  | [part] => quoteName part
  | part :: rest => quoteName part ++ '.' :: qualifiedChars rest

def Token.chars (layout : Layout) : Token → List Char
  | .keyword k => k.text.toList
  | .comparison c => (comparisonText c).toList
  | .comma => [',']
  | .dot => ['.']
  | .star => ['*']
  | .lparen => ['(']
  | .rparen => [')']
  | .space => [' ']
  | .newline =>
    match layout with
    | .pretty => ['\n']
    | .compact => [' ']
  | .indent depth =>
    match layout with
    | .pretty => List.replicate (2 * depth) ' '
    | .compact => []
  | .ident name => quoteName name
  | .qualified parts => qualifiedChars parts
  | .literal l => literalChars l
  | .function name => (Text.upper name).toList

/-- The text of tokens behind a text that ends in `last`. On one line a line break next to the
inside of a parenthesis disappears. -/
def renderAfter (layout : Layout) (last : Option Char) : List Token → List Char
  | [] => []
  | t :: ts =>
    if layout = .compact ∧ t = .newline ∧ (last = some '(' ∨ ts.head? = some .rparen) then
      renderAfter layout last ts
    else t.chars layout ++ renderAfter layout ((t.chars layout).getLast?.or last) ts

def render (layout : Layout) (tokens : List Token) : String :=
  String.ofList (renderAfter layout none tokens)

end EventQuery.Sql
