import Tablewright.Text.UpperCase
import Tablewright.Text.Search

namespace Tablewright

inductive Kind where
  | text
  | integer
  | real
  | blob
deriving DecidableEq, Repr, Inhabited

def Kind.name : Kind → String
  | .text => "TEXT"
  | .integer => "INTEGER"
  | .real => "REAL"
  | .blob => "BLOB"

def Kind.ofName? (name : String) : Option Kind :=
  [Kind.text, .integer, .real, .blob].find? (·.name == name)

/-- The kind of a declared type, by the first of the affinity rules that its text meets. Numeric
affinity counts as `real`; no text at all, or none given, as `blob`. -/
def Kind.ofDeclared (declared : Option String) : Kind :=
  let t := Text.uppercase (declared.getD "")
  if Text.contains "INT" t then .integer
  else if Text.contains "CHAR" t || Text.contains "CLOB" t || Text.contains "TEXT" t then .text
  else if Text.contains "BLOB" t || t.isEmpty then .blob
  else .real

structure ForeignKey where
  table : String
  column : String
deriving DecidableEq, Repr

structure Column where
  name : String
  kind : Kind
  notNull : Bool := false
  primaryKey : Bool := false
  references : Option ForeignKey := none
  unique : Bool := false
  /-- the SQL text after `DEFAULT`, written as it stands -/
  fallback : Option String := none
deriving DecidableEq, Repr

end Tablewright
