import Tablewright.Schema.Column

namespace Tablewright

inductive SqlType where
  | integer
  | boolean
  | float
  | numeric
  | string
  | enumeration
  | date
  | dateTime
  | time
  | binary
  | untyped
  /-- any other type, by its declared text if it has one -/
  | other (declared : Option String)
deriving DecidableEq, Repr

namespace SqlType

def kind : SqlType → Kind
  | integer | boolean => .integer
  | float | numeric => .real
  | string | enumeration | date | dateTime | time => .text
  | binary | untyped => .blob
  | other declared => .ofDeclared declared

end SqlType

end Tablewright
