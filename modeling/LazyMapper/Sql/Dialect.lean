/-!
# SQL dialects

A dialect fixes how a parameter is marked and how an identifier is quoted. A quoted identifier
stands between two marks, and a mark inside it is written twice; `readQuoted` reads one back.
-/

set_option autoImplicit false

namespace LazyMapper.Sql

/-! ## Quoted identifiers -/

/-- The inside of a quoted identifier: every mark is written twice. -/
def doubleMarks (mark : Char) : List Char → List Char
  | [] => []
  | char :: rest =>
    if char = mark then mark :: mark :: doubleMarks mark rest else char :: doubleMarks mark rest

/-- An identifier between its marks. -/
def quoteChars (mark : Char) (name : List Char) : List Char :=
  mark :: doubleMarks mark name ++ [mark]

/-- The identifier up to the first mark that is not doubled, and the text behind that mark. -/
def readInside (mark : Char) : List Char → Option (List Char × List Char)
  | [] => none
  | [char] => if char = mark then some ([], []) else none
  | char :: next :: rest =>
    if char = mark then
      if next = mark then (readInside mark rest).map fun read => (mark :: read.1, read.2)
      else some ([], next :: rest)
    else (readInside mark (next :: rest)).map fun read => (char :: read.1, read.2)

/-- Reads a quoted identifier at the front of a text, and returns it with what follows. -/
def readQuoted (mark : Char) : List Char → Option (List Char × List Char)
  | [] => none
  | char :: rest => if char = mark then readInside mark rest else none

/-! ## Dialects -/

/-- A SQL dialect. -/
inductive Dialect where
  | postgres
  | sqlite
  | mysql
deriving DecidableEq, Repr

namespace Dialect

/-- The name of a dialect in settings. -/
def name : Dialect → String
  | .postgres => "postgres"
  | .sqlite => "sqlite"
  | .mysql => "mysql"

/-- The dialect of a name. -/
def ofName? (name : String) : Option Dialect :=
  [postgres, sqlite, mysql].find? (·.name == name)

/-- The mark around quoted identifiers. -/
def quoteMark : Dialect → Char
  | .postgres | .sqlite => '"'
  | .mysql => '\x60'

/-- How the parameter of a number, counted from one, is marked. -/
def placeholder (dialect : Dialect) (number : Nat) : String :=
  match dialect with
  | .postgres => s!"${number}"
  | .sqlite => s!"?{number}"
  | .mysql => "?"

/-- A quoted identifier. -/
def quote (dialect : Dialect) (identifier : String) : String :=
  String.ofList (quoteChars dialect.quoteMark identifier.toList)

/-- A quoted column, behind the name of its table if there is one. The table is not quoted. -/
def column (dialect : Dialect) (table? : Option String) (name : String) : String :=
  match table? with
  | some table => table ++ "." ++ dialect.quote name
  | none => dialect.quote name

end Dialect

end LazyMapper.Sql
