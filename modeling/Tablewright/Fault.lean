
namespace Tablewright

inductive Mismatch where
  | missing (names : List String)
  | tooMany (least most given byName : Nat)
  | repeated (name : String)
  | unknown (name : String)
deriving DecidableEq, Repr

inductive DefinitionFault where
  | unknownTable (table column target targetColumn : String)
  | unknownColumn (table key target targetColumn : String)
  | unknownConstraintColumn (constraint table column : String)
  | repeatedColumn (table column : String)
  | repeatedTable (table : String)
  | namelessColumn
deriving DecidableEq, Repr

inductive Fault where
  | numberTooLarge
  | codeTooLarge
  | lacks (kind what : String)
  /-- a family of things, not one of them, lacks what it is asked for -/
  | familyLacks (family what : String)
  | undecodable (field : String)
  | garbled (reason : String)
  | namelessSection
  | senseless (reason : String)
  | unknownKey (shown : String)
  | pastEnd (kind : String)
  | unhashable (kind : String)
  | notText (position : Nat) (kind : String)
  | notIterable
  /-- something of no kind whose items could be gone through one by one -/
  | unwalkable (kind : String)
  /-- something of no kind whose items could be counted -/
  | uncountable (kind : String)
  | notMatchable (kind : String)
  | homeless
  | unevenRow (longer : Bool)
  | outsidePackage (name : String)
  | arguments (operation : String) (m : Mismatch)
  | definition (d : DefinitionFault)
deriving DecidableEq, Repr

inductive FaultFamily where
  | value
  | type
  | key
  | position
  | attribute
  | size
  | place
  | source
  | missingTable
  | missingColumn
  | missingConstraintColumn
  | doubleColumn
  | doubleTable
  | argument
deriving DecidableEq, Repr

def listed : List String → String
  | [] => ""
  | [a] => a
  | [a, b] => a ++ " and " ++ b
  | items => String.intercalate ", " items.dropLast ++ ", and " ++ items.getLastD ""

def plural (n : Nat) : String := if n = 1 then "" else "s"

def Mismatch.message : Mismatch → String
  | missing names =>
    let shown := listed (names.map fun n => "'" ++ n ++ "'")
    s!"missing {names.length} required positional argument{plural names.length}: {shown}"
  | tooMany least most given byName =>
    let takes := if least = most then toString most else s!"from {least} to {most}"
    let several := if least = most then plural most else "s"
    let verb := if given = 1 && byName = 0 then "was" else "were"
    let others :=
      if byName = 0 then ""
      else s!" positional argument{plural given} (and {byName} keyword-only " ++
        s!"argument{plural byName})"
    s!"takes {takes} positional argument{several} but {given}{others} {verb} given"
  | repeated name => s!"got multiple values for argument '{name}'"
  | unknown name => s!"got an unexpected keyword argument '{name}'"

namespace DefinitionFault

def message : DefinitionFault → String
  | unknownTable table column target targetColumn =>
    s!"Foreign key associated with column '{table}.{column}' could not find table '{target}' " ++
      s!"with which to generate a foreign key to target column '{targetColumn}'"
  | unknownColumn table key target targetColumn =>
    s!"Could not initialize target column for ForeignKey '{key}' on table '{table}': " ++
      s!"table '{target}' has no column named '{targetColumn}'"
  | unknownConstraintColumn constraint table column =>
    s!"Can't create {constraint} on table '{table}': no column named '{column}' is present."
  | repeatedColumn table column =>
    s!"A column with name '{column}' is already present in table '{table}'."
  | repeatedTable table =>
    s!"Table '{table}' is already defined for this MetaData instance.  Specify " ++
      "'extend_existing=True' to redefine options and columns on an existing Table object."
  | namelessColumn =>
    "Column must be constructed with a non-blank name or assign a non-blank .name before adding " ++
      "to a Table."

def family : DefinitionFault → FaultFamily
  | unknownTable .. => .missingTable
  | unknownColumn .. => .missingColumn
  | unknownConstraintColumn .. => .missingConstraintColumn
  | repeatedColumn .. => .doubleColumn
  | repeatedTable _ => .doubleTable
  | namelessColumn => .argument

end DefinitionFault

namespace Fault

def message : Fault → String
  | numberTooLarge => "int too large to convert to float"
  | codeTooLarge => "Python int too large to convert to C int"
  | lacks kind what => s!"'{kind}' object has no attribute '{what}'"
  | familyLacks family what => s!"type object '{family}' has no attribute '{what}'"
  | undecodable field =>
    s!"error parsing value for field \"{field}\" from source \"EnvSettingsSource\""
  | garbled reason => reason
  | namelessSection => "keywords must be strings"
  | senseless reason => reason
  | unknownKey shown => shown
  | pastEnd kind => s!"{kind} index out of range"
  | unhashable kind => s!"unhashable type: '{kind}'"
  | notText position kind => s!"sequence item {position}: expected str instance, {kind} found"
  | notIterable => "can only join an iterable"
  | unwalkable kind => s!"'{kind}' object is not iterable"
  | uncountable kind => s!"object of type '{kind}' has no len()"
  | notMatchable kind => s!"expected string or bytes-like object, got '{kind}'"
  | homeless => "Could not determine home directory."
  | unevenRow longer =>
    let side := if longer then "longer" else "shorter"
    s!"zip() argument 2 is {side} than argument 1"
  | outsidePackage name =>
    s!"the 'package' argument is required to perform a relative import for '{name}'"
  | arguments operation m => s!"{operation}() {m.message}"
  | definition d => d.message

def family : Fault → FaultFamily
  | numberTooLarge | codeTooLarge => .size
  | lacks .. | familyLacks .. => .attribute
  | undecodable _ => .source
  | garbled _ | senseless _ | unevenRow _ => .value
  | unknownKey _ => .key
  | pastEnd _ => .position
  | homeless => .place
  | definition d => d.family
  | _ => .type

end Fault

end Tablewright
