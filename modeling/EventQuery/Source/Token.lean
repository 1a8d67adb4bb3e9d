import EventQuery.Source.Position

/-! The words of the query language, and what is reported where a text leaves it. -/

namespace EventQuery

/-- The reserved words, in the order in which they are offered. -/
inductive Keyword where
  | select
  | join
  | before
  | after
  | first
  | last
  | usingList
  | filter
  | asName
deriving DecidableEq

namespace Keyword

def text : Keyword → String
  | .select => "select"
  | .join => "join"
  | .before => "before"
  | .after => "after"
  | .first => "first"
  | .last => "last"
  | .usingList => "using"
  | .filter => "filter"
  | .asName => "as"

def all : List Keyword :=
  [.select, .join, .before, .after, .first, .last, .usingList, .filter, .asName]

/-- The keyword a word spells, in any case of the ASCII letters. -/
def ofWord? (word : List Char) : Option Keyword :=
  all.find? fun k => k.text.toList = word.map Char.toLower

end Keyword

inductive Comparison where
  | eq
  | ne
  | lt
  | le
  | gt
  | ge
deriving DecidableEq

def Comparison.text : Comparison → String
  | .eq => "="
  | .ne => "!="
  | .lt => "<"
  | .le => "<="
  | .gt => ">"
  | .ge => ">="

inductive Token where
  | keyword (k : Keyword)
  | ident (name : String)
  /-- A quoted text, without its quotes. -/
  | quoted (contents : String)
  /-- A numeral as written. -/
  | number (numeral : String)
  | comparison (c : Comparison)
  | lparen
  | rparen
  | comma
deriving DecidableEq

/-- How a message names a token. -/
def Token.text : Token → String
  | .keyword k => k.text
  | .ident name => name
  | .quoted contents => "'" ++ contents ++ "'"
  | .number numeral => numeral
  | .comparison c => c.text
  | .lparen => "("
  | .rparen => ")"
  | .comma => ","

/-- A token and the bytes it was read from. -/
abbrev Lexeme := Located ByteRange Token

/-- What stands where something else was expected. -/
inductive Found where
  | endOfInput
  | char (c : Char)
  | token (t : Token)
deriving DecidableEq

def Found.text : Found → String
  | .endOfInput => "end of input"
  | .char c => "'" ++ String.singleton c ++ "'"
  | .token t => "'" ++ t.text ++ "'"

inductive SyntaxFault where
  | unexpected (found : Found)
  | unknownFunction (name : String)
deriving DecidableEq

def SyntaxFault.message : SyntaxFault → String
  | .unexpected found => "found " ++ found.text
  | .unknownFunction name => "Unknown aggregation function `" ++ name ++ "`"

/-- Why a text is no query, and where. -/
abbrev SyntaxError (ρ : Type) := Located ρ SyntaxFault

end EventQuery
