import Tablewright.Fault
import Tablewright.Report

namespace Tablewright

structure Issue where
  place : List String
  kind : String
  reason : String
  input : Value
deriving Repr

inductive ConfigError where
  | unreadable (path reason : String)
  | invalidValue (field : String) (value : Value) (reason : String)
  | fileNotFound (path : String)
deriving Repr

inductive SchemaError where
  | duplicateTable (table : String)
  | duplicateColumn (table column : String)
  | primaryKeys (table : String) (count : Nat)
  | danglingForeignKey (table column : String) (target : ForeignKey)
  | foreignKeyCycle (tables : List String)
  | duplicateIndex (index : String)
  | invalidIndex (index reason : String)
  | unsupported (subject reason : String)
deriving Repr, DecidableEq

inductive MigrationError where
  | notNullWithoutDefault (table column : String)
  | unsupportedAddColumn (table column reason : String)
  | foreignKeyCycle (tables : List String)
  | ddlFailed (sql reason : String)
deriving Repr, DecidableEq

inductive BuildError where
  | unknownTable (table : String)
  | unknownColumn (table column : String)
  | tableNotInScope (table : String)
  | incomplete (statement missing : String)
  | invalid (reason : String)
deriving Repr, DecidableEq

inductive ExecutionError where
  | bindingMismatch (sql : String) (expected got : Nat)
  | unboundParameter (sql name : String)
  | engine (sql reason : String) (retryable : Bool)
  | noRows (sql : String)
  | closed
deriving Repr, DecidableEq

inductive ShapeError where
  | columnSet (model table : String) (expected got : List String)
  | missingColumn (model field column : String)
  | ambiguousColumn (model column : String)
  | width (model : String) (expected got : Nat)
  | invalidModel (model reason : String)
  | invalidRow (model : String) (issues : List Issue)
deriving Repr

inductive Failure where
  | config (e : ConfigError)
  | schema (e : SchemaError)
  | migration (e : MigrationError)
  | build (e : BuildError)
  | execution (e : ExecutionError)
  | shape (e : ShapeError)
  | internal (reason : String) (details : List (String × Value))
  | misfit (issues : List Issue)
  | fault (f : Fault)
deriving Repr

def ConfigError.report : ConfigError → Report
  | .unreadable path reason => .unreadable (.text path) (.text reason)
  | .invalidValue field value reason => .invalidValue (.text field) value (.text reason)
  | .fileNotFound path => .fileNotFound (.text path)

def SchemaError.report : SchemaError → Report
  | .duplicateTable table => .duplicateTable (.text table)
  | .duplicateColumn table column => .duplicateColumn (.text table) (.text column)
  | .primaryKeys table count => .primaryKeys (.text table) (.int count)
  | .danglingForeignKey table column target =>
    .danglingForeignKey (.text table) (.text column) (.text target.table) (.text target.column)
  | .foreignKeyCycle tables => .foreignKeyCycle (commas tables) (names tables)
  | .duplicateIndex index => .duplicateIndex (.text index)
  | .invalidIndex index reason => .invalidIndex (.text index) (.text reason)
  | .unsupported subject reason => .unsupported (.text subject) (.text reason)

def MigrationError.report : MigrationError → Report
  | .notNullWithoutDefault table column => .notNullWithoutDefault (.text table) (.text column)
  | .unsupportedAddColumn table column reason =>
    .unsupportedAddColumn (.text table) (.text column) (.text reason)
  | .foreignKeyCycle tables => .creationCycle (commas tables) (names tables)
  | .ddlFailed sql reason => .ddlFailed (.text sql) (.text reason)

def BuildError.report : BuildError → Report
  | .unknownTable table => .unknownTable (.text table)
  | .unknownColumn table column => .unknownColumn (.text table) (.text column)
  | .tableNotInScope table => .tableNotInScope (.text table)
  | .incomplete statement missing => .incomplete (.text statement) (.text missing)
  | .invalid reason => .invalid (.text reason)

def ExecutionError.report : ExecutionError → Report
  | .bindingMismatch sql expected got => .bindingMismatch (.text sql) (.int expected) (.int got)
  | .unboundParameter sql name => .unboundParameter (.text sql) (.text name)
  | .engine sql reason retryable => .engineError (.text sql) (.text reason) (.bool retryable)
  | .noRows sql => .noRows (.text sql)
  | .closed => .closed

/-- The issues of a row travel beside its report, which only marks where they would stand. -/
def ShapeError.rowReason : String := "<validation>"

def ShapeError.report : ShapeError → Report
  | .columnSet model table expected got =>
    .columnSet (.text model) (.text table) (names expected) (names got)
  | .missingColumn model field column =>
    .missingColumn (.text model) (.text field) (.text column)
  | .ambiguousColumn model column => .ambiguousColumn (.text model) (.text column)
  | .width model expected got => .width (.text model) (.int expected) (.int got)
  | .invalidModel model reason => .invalidModel (.text model) (.text reason)
  | .invalidRow model _ => .invalidModel (.text model) (.text rowReason)

def Failure.report? : Failure → Option Report
  | config e => some e.report
  | schema e => some e.report
  | migration e => some e.report
  | build e => some e.report
  | execution e => some e.report
  | shape e => some e.report
  | internal reason details => some (.unexpected (.text reason) details)
  | misfit _ => none
  | fault _ => none

end Tablewright
