
namespace Tablewright

inductive Code where
  | configParseError
  | configInvalidValue
  | configFileNotFound
  | schemaDuplicateTable
  | schemaDuplicateColumn
  | schemaPrimaryKey
  | schemaDanglingForeignKey
  | schemaForeignKeyCycle
  | schemaDuplicateIndex
  | schemaInvalidIndex
  | schemaUnsupported
  | migrationNotNullWithoutDefault
  | migrationUnsupportedAddColumn
  | migrationForeignKeyCycle
  | migrationDdlFailed
  | queryUnknownTable
  | queryUnknownColumn
  | queryTableNotInScope
  | queryIncomplete
  | queryInvalid
  | executionBindingMismatch
  | executionEngineError
  | executionNoRows
  | executionClosed
  | shapeColumnSet
  | shapeMissingColumn
  | shapeAmbiguousColumn
  | shapeWidth
  | shapeInvalidModel
  | internalError
deriving DecidableEq, Repr

namespace Code

def entry : Code → String × Nat
  | configParseError => ("CONFIG_PARSE_ERROR", 2001)
  | configInvalidValue => ("CONFIG_INVALID_VALUE", 2002)
  | configFileNotFound => ("CONFIG_FILE_NOT_FOUND", 2004)
  | schemaDuplicateTable => ("SCHEMA_DUPLICATE_TABLE", 3001)
  | schemaDuplicateColumn => ("SCHEMA_DUPLICATE_COLUMN", 3002)
  | schemaPrimaryKey => ("SCHEMA_PRIMARY_KEY", 3003)
  | schemaDanglingForeignKey => ("SCHEMA_DANGLING_FOREIGN_KEY", 3004)
  | schemaForeignKeyCycle => ("SCHEMA_FOREIGN_KEY_CYCLE", 3005)
  | schemaDuplicateIndex => ("SCHEMA_DUPLICATE_INDEX", 3006)
  | schemaInvalidIndex => ("SCHEMA_INVALID_INDEX", 3007)
  | schemaUnsupported => ("SCHEMA_UNSUPPORTED", 3008)
  | migrationNotNullWithoutDefault => ("MIGRATION_NOT_NULL_WITHOUT_DEFAULT", 4001)
  | migrationUnsupportedAddColumn => ("MIGRATION_UNSUPPORTED_ADD_COLUMN", 4002)
  | migrationForeignKeyCycle => ("MIGRATION_FOREIGN_KEY_CYCLE", 4003)
  | migrationDdlFailed => ("MIGRATION_DDL_FAILED", 4004)
  | queryUnknownTable => ("QUERY_UNKNOWN_TABLE", 5001)
  | queryUnknownColumn => ("QUERY_UNKNOWN_COLUMN", 5002)
  | queryTableNotInScope => ("QUERY_TABLE_NOT_IN_SCOPE", 5003)
  | queryIncomplete => ("QUERY_INCOMPLETE", 5004)
  | queryInvalid => ("QUERY_INVALID", 5005)
  | executionBindingMismatch => ("EXECUTION_BINDING_MISMATCH", 6001)
  | executionEngineError => ("EXECUTION_ENGINE_ERROR", 6002)
  | executionNoRows => ("EXECUTION_NO_ROWS", 6003)
  | executionClosed => ("EXECUTION_CLOSED", 6004)
  | shapeColumnSet => ("SHAPE_COLUMN_SET", 7001)
  | shapeMissingColumn => ("SHAPE_MISSING_COLUMN", 7002)
  | shapeAmbiguousColumn => ("SHAPE_AMBIGUOUS_COLUMN", 7003)
  | shapeWidth => ("SHAPE_WIDTH", 7004)
  | shapeInvalidModel => ("SHAPE_INVALID_MODEL", 7005)
  | internalError => ("INTERNAL_ERROR", 9001)

def name (c : Code) : String := c.entry.1

def number (c : Code) : Nat := c.entry.2

def all : List Code :=
  [configParseError, configInvalidValue, configFileNotFound, schemaDuplicateTable,
   schemaDuplicateColumn, schemaPrimaryKey, schemaDanglingForeignKey, schemaForeignKeyCycle,
   schemaDuplicateIndex, schemaInvalidIndex, schemaUnsupported, migrationNotNullWithoutDefault,
   migrationUnsupportedAddColumn, migrationForeignKeyCycle, migrationDdlFailed, queryUnknownTable,
   queryUnknownColumn, queryTableNotInScope, queryIncomplete, queryInvalid,
   executionBindingMismatch, executionEngineError, executionNoRows, executionClosed,
   shapeColumnSet, shapeMissingColumn, shapeAmbiguousColumn, shapeWidth, shapeInvalidModel,
   internalError]

end Code

end Tablewright
