import Tablewright.Schema.Live
import Tablewright.Statement.Compiled

/-! Migration plans: the schema changes that bring a live schema up to a declared one. A plan only
ever adds: tables, columns of tables that exist, and indexes, in this order. -/

namespace Tablewright

structure Plan where
  operations : List Ddl := []
deriving Repr, DecidableEq

namespace Ddl

def text (d : Ddl) : String := d.sql.text

end Ddl

namespace Plan

def isEmpty (p : Plan) : Bool := p.operations.isEmpty

def size (p : Plan) : Nat := p.operations.length

def statements (p : Plan) : List String := p.operations.map (·.text)

def summary (p : Plan) : List (String × Nat) :=
  let count (label : String) : Nat := p.operations.countP (·.label == label)
  [("create_table", count "CreateTable"), ("add_column", count "AddColumn"),
    ("create_index", count "CreateIndex")]

end Plan

/-- A column that can be added to a table with rows: no key, no uniqueness, and a default if it has
to have a value. -/
def checkAddable (table : String) (c : Column) : Except MigrationError Unit :=
  if c.primaryKey then .error (.unsupportedAddColumn table c.name "primary key column")
  else if c.unique then .error (.unsupportedAddColumn table c.name "UNIQUE column")
  else if c.notNull && c.fallback.isNone then .error (.notNullWithoutDefault table c.name)
  else .ok ()

def addMissing (table : String) (existing : Table) : List Column → Except MigrationError (List Ddl)
  | [] => .ok []
  | c :: rest =>
    if (existing.column? c.name).isSome then addMissing table existing rest
    else (checkAddable table c).bind fun _ =>
      (addMissing table existing rest).map fun others => .addColumn existing.name c :: others

def addToExisting (live : LiveSchema) : List Table → Except MigrationError (List Ddl)
  | [] => .ok []
  | t :: rest =>
    match live.findTable? t.name with
    | none => addToExisting live rest
    | some existing =>
      (addMissing t.name existing t.columns).bind fun here =>
        (addToExisting live rest).map fun others => here ++ others

def missingTables (declared : Schema) (live : LiveSchema) : List Table :=
  declared.tables.values.filter fun t => (live.findTable? t.name).isNone

def missingIndexes (declared : Schema) (live : LiveSchema) : List Index :=
  declared.indexes.values.filter fun i => !live.hasIndex i.name

def reconcile (declared : Schema) (live : LiveSchema) : Except MigrationError Plan :=
  let order := orderByReferences (missingTables declared live)
  if !order.leftOver.isEmpty then .error (.foreignKeyCycle order.leftOver)
  else (addToExisting live declared.tables.values).map fun additions =>
    ⟨order.ordered.map .createTable ++ additions ++
      (missingIndexes declared live).map .createIndex⟩

end Tablewright
