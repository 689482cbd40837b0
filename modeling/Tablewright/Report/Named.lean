import Tablewright.Report
import Tablewright.Signature

namespace Tablewright

namespace Value

def items? : Value → Option (List Value)
  | text s => some (s.toList.map fun c => .text c.toString)
  | blob bytes => some (bytes.map fun b => .int b.toNat)
  | list items => some items
  | tuple items => some items
  | set items => some items
  | map entries => some (entries.map (·.1))
  | _ => none

def texts (position : Nat) : List Value → Except Fault (List String)
  | [] => .ok []
  | .text s :: rest => (texts (position + 1) rest).map (s :: ·)
  | v :: _ => .error (.notText position v.kind)

def joined (v : Value) : Except Fault String :=
  match v.items? with
  | some items => (texts 0 items).map commas
  | none => .error .notIterable

end Value

namespace Report

structure Maker where
  name : String
  required : List String
  byName : List String := []
  others : Bool := false
  make : Arguments Value → Except Fault Report

namespace Maker

def one (name a : String) (make : Value → Report) : Maker where
  name
  required := [a]
  make x := .ok (make (x.get a))

def two (name a b : String) (make : Value → Value → Report) : Maker where
  name
  required := [a, b]
  make x := .ok (make (x.get a) (x.get b))

def three (name a b c : String) (make : Value → Value → Value → Report) : Maker where
  name
  required := [a, b, c]
  make x := .ok (make (x.get a) (x.get b) (x.get c))

def four (name a b c d : String) (make : Value → Value → Value → Value → Report) : Maker where
  name
  required := [a, b, c, d]
  make x := .ok (make (x.get a) (x.get b) (x.get c) (x.get d))

def cycle (make : String → Value → Report) : Maker where
  name := "foreign_key_cycle"
  required := ["tables"]
  make x := do
    let tables := x.get "tables"
    return make (← tables.joined) tables

end Maker

def makers : Keyed (List Maker) :=
  [("ConfigError",
     [.two "parse_error" "path" "reason" unreadable,
      .three "invalid_value" "field" "value" "reason" invalidValue,
      .one "file_not_found" "path" fileNotFound]),
   ("SchemaError",
     [.one "duplicate_table" "table" duplicateTable,
      .two "duplicate_column" "table" "column" duplicateColumn,
      .two "primary_key" "table" "count" primaryKeys,
      .four "dangling_foreign_key" "table" "column" "target_table" "target_column"
        danglingForeignKey,
      .cycle foreignKeyCycle,
      .one "duplicate_index" "index" duplicateIndex,
      .two "invalid_index" "index" "reason" invalidIndex,
      .two "unsupported" "subject" "reason" unsupported]),
   ("MigrationError",
     [.two "not_null_without_default" "table" "column" notNullWithoutDefault,
      .three "unsupported_add_column" "table" "column" "reason" unsupportedAddColumn,
      .cycle creationCycle,
      .two "ddl_failed" "sql" "reason" ddlFailed]),
   ("QueryBuildError",
     [.one "unknown_table" "table" unknownTable,
      .two "unknown_column" "table" "column" unknownColumn,
      .one "table_not_in_scope" "table" tableNotInScope,
      .two "incomplete" "statement" "missing" incomplete,
      .one "invalid" "reason" invalid]),
   ("ExecutionError",
     [.three "binding_mismatch" "sql" "expected" "got" bindingMismatch,
      .two "unbound_parameter" "sql" "name" unboundParameter,
      { name := "engine_error"
        required := ["sql", "reason"]
        byName := ["retryable"]
        make x := .ok (engineError (x.get "sql") (x.get "reason")
          ((x.given.get? "retryable").getD (.bool false))) },
      .one "no_rows" "sql" noRows,
      { name := "closed", required := [], make _ := .ok closed }]),
   ("ShapeMismatch",
     [.four "column_set" "model" "table" "expected" "got" columnSet,
      .three "missing_column" "model" "field" "column" missingColumn,
      .two "ambiguous_column" "model" "column" ambiguousColumn,
      .three "width" "model" "expected" "got" width,
      .two "invalid_model" "model" "reason" invalidModel]),
   ("InternalError",
     [{ name := "unexpected"
        required := ["reason"]
        others := true
        make x := .ok (unexpected (x.get "reason") x.others) }])]

def ofName (family name : String) (positional : List Value) (named : Keyed Value) :
    Except Fault Report := do
  match ((makers.get? family).getD []).find? (·.name = name) with
  | none => throw (.familyLacks family name)
  | some m =>
    let signature : Signature :=
      { operation := family ++ "." ++ name, receiver := some "cls", required := m.required
        byName := m.byName, others := m.others }
    m.make (← signature.bind positional named)

end Report

end Tablewright
