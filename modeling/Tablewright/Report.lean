import Tablewright.Code
import Tablewright.Value

namespace Tablewright

structure Report where
  code : Code
  message : String
  retryable : Value := .bool false
  details : List (String × Value) := []

instance : ToString Value where
  toString := Value.displayed

def commas (items : List String) : String := String.intercalate ", " items

def names (items : List String) : Value := .list (items.map .text)

namespace Report

def unreadable (path reason : Value) : Report where
  code := .configParseError
  message := s!"Failed to parse config at {path}: {reason}"
  details := [("path", path), ("reason", reason)]

def invalidValue (field value reason : Value) : Report where
  code := .configInvalidValue
  message := s!"Invalid value for '{field}': {reason}"
  details := [("field", field), ("value", .text value.displayed), ("reason", reason)]

def fileNotFound (path : Value) : Report where
  code := .configFileNotFound
  message := s!"Config file not found: {path}"
  details := [("path", path)]

def duplicateTable (table : Value) : Report where
  code := .schemaDuplicateTable
  message := s!"Table '{table}' is declared more than once"
  details := [("table", table)]

def duplicateColumn (table column : Value) : Report where
  code := .schemaDuplicateColumn
  message := s!"Column '{column}' is declared more than once on '{table}'"
  details := [("table", table), ("column", column)]

def primaryKeys (table count : Value) : Report where
  code := .schemaPrimaryKey
  message := s!"Table '{table}' must have exactly one primary key column, found {count}"
  details := [("table", table), ("count", count)]

def danglingForeignKey (table column targetTable targetColumn : Value) : Report where
  code := .schemaDanglingForeignKey
  message := s!"Foreign key {table}.{column} references unknown {targetTable}.{targetColumn}"
  details := [("table", table), ("column", column), ("target_table", targetTable),
    ("target_column", targetColumn)]

def foreignKeyCycle (listed : String) (tables : Value) : Report where
  code := .schemaForeignKeyCycle
  message := s!"Foreign keys form a cycle between: {listed}"
  details := [("tables", tables)]

def duplicateIndex (index : Value) : Report where
  code := .schemaDuplicateIndex
  message := s!"Index '{index}' is declared more than once"
  details := [("index", index)]

def invalidIndex (index reason : Value) : Report where
  code := .schemaInvalidIndex
  message := s!"Index '{index}' is invalid: {reason}"
  details := [("index", index), ("reason", reason)]

def unsupported (subject reason : Value) : Report where
  code := .schemaUnsupported
  message := s!"{subject}: {reason}"
  details := [("subject", subject), ("reason", reason)]

def notNullWithoutDefault (table column : Value) : Report where
  code := .migrationNotNullWithoutDefault
  message := s!"Cannot add NOT NULL column {table}.{column} without a default value"
  details := [("table", table), ("column", column)]

def unsupportedAddColumn (table column reason : Value) : Report where
  code := .migrationUnsupportedAddColumn
  message := s!"Cannot add column {table}.{column}: {reason}"
  details := [("table", table), ("column", column), ("reason", reason)]

def creationCycle (listed : String) (tables : Value) : Report where
  code := .migrationForeignKeyCycle
  message := s!"Cannot order table creation, foreign key cycle: {listed}"
  details := [("tables", tables)]

def ddlFailed (sql reason : Value) : Report where
  code := .migrationDdlFailed
  message := s!"Migration rolled back, statement failed: {reason}"
  details := [("sql", sql), ("reason", reason)]

def unknownTable (table : Value) : Report where
  code := .queryUnknownTable
  message := s!"Unknown table '{table}'"
  details := [("table", table)]

def unknownColumn (table column : Value) : Report where
  code := .queryUnknownColumn
  message := s!"Unknown column '{column}' on table '{table}'"
  details := [("table", table), ("column", column)]

def tableNotInScope (table : Value) : Report where
  code := .queryTableNotInScope
  message := s!"Table '{table}' is referenced but not part of the statement"
  details := [("table", table)]

def incomplete (statement missing : Value) : Report where
  code := .queryIncomplete
  message := s!"{statement} statement is missing {missing}"
  details := [("statement", statement), ("missing", missing)]

def invalid (reason : Value) : Report where
  code := .queryInvalid
  message := reason.displayed
  details := [("reason", reason)]

def bindingMismatch (sql expected got : Value) : Report where
  code := .executionBindingMismatch
  message := s!"Statement expects {expected} bound values, got {got}"
  details := [("sql", sql), ("expected", expected), ("got", got)]

def unboundParameter (sql parameter : Value) : Report where
  code := .executionBindingMismatch
  message := s!"No value supplied for parameter '{parameter}'"
  details := [("sql", sql), ("parameter", parameter)]

def engineError (sql reason retryable : Value) : Report where
  code := .executionEngineError
  message := s!"Statement failed: {reason}"
  retryable
  details := [("sql", sql), ("reason", reason)]

def noRows (sql : Value) : Report where
  code := .executionNoRows
  message := "Statement returned no rows"
  details := [("sql", sql)]

def closed : Report where
  code := .executionClosed
  message := "Database is closed"

def columnSet (model table expected got : Value) : Report where
  code := .shapeColumnSet
  message := s!"{model} is bound to table '{table}' but the result columns {got} differ from " ++
    expected.displayed
  details := [("model", model), ("table", table), ("expected", expected), ("got", got)]

def missingColumn (model field column : Value) : Report where
  code := .shapeMissingColumn
  message := s!"{model}.{field} has no result column '{column}'"
  details := [("model", model), ("field", field), ("column", column)]

def ambiguousColumn (model column : Value) : Report where
  code := .shapeAmbiguousColumn
  message := s!"{model} maps column '{column}' which appears more than once"
  details := [("model", model), ("column", column)]

def width (model expected got : Value) : Report where
  code := .shapeWidth
  message := s!"{model} consumes {expected} columns but the result has {got}"
  details := [("model", model), ("expected", expected), ("got", got)]

def invalidModel (model reason : Value) : Report where
  code := .shapeInvalidModel
  message := s!"{model} cannot be used as a row shape: {reason}"
  details := [("model", model), ("reason", reason)]

def unexpected (reason : Value) (details : List (String × Value)) : Report where
  code := .internalError
  message := s!"Internal error: {reason}"
  details

def line (r : Report) : String := s!"[{r.code.number}] {r.code.name}: {r.message}"

end Report

end Tablewright
