import Tablewright.Catalog.ServerDefault
import Tablewright.Catalog.SqlType
import Tablewright.Schema.Declared

namespace Tablewright

structure DefinedColumn where
  name : String
  type : SqlType := .string
  primaryKey : Bool := false
  nullable : Bool := true
  unique : Bool := false
  indexed : Bool := false
  /-- the targets of foreign keys, as `table.column` -/
  targets : List String := []
  serverDefault : ServerDefault := .absent
deriving Repr

structure DefinedIndex where
  name : String
  columns : List String
  unique : Bool := false
deriving DecidableEq, Repr

structure DefinedTable where
  name : String
  columns : List DefinedColumn
  uniques : List (List String) := []
  explicitIndexes : List DefinedIndex := []
deriving Repr

/-- The table and the column of a target: everything before the last point, and the rest. -/
def ForeignKey.ofTarget (target : String) : ForeignKey :=
  match Text.cutFirst '.' target.toList.reverse with
  | some (column, table) => ⟨String.ofList table.reverse, String.ofList column.reverse⟩
  | none => ⟨"", target⟩

/-- What a target of a column stands for. One without a point names a table only, and stands for the
column of the same name there. -/
def DefinedColumn.resolve (c : DefinedColumn) (target : String) : ForeignKey :=
  if target.contains '.' then .ofTarget target else ⟨target, c.name⟩

namespace DefinedTable

def column? (t : DefinedTable) (name : String) : Option DefinedColumn :=
  t.columns.find? (·.name == name)

def uniqueColumns (t : DefinedTable) : List String :=
  t.uniques.filterMap fun columns =>
    match columns.eraseDups with
    | [c] => some c
    | _ => none

def describeColumn (t : DefinedTable) (c : DefinedColumn) : Except SchemaError Column :=
  let column (references : Option ForeignKey) : Column :=
    { name := c.name
      kind := c.type.kind
      notNull := !c.nullable && !c.primaryKey
      primaryKey := c.primaryKey
      references
      unique := c.unique || t.uniqueColumns.contains c.name
      fallback := c.serverDefault.clause }
  match c.targets with
  | [] => .ok (column none)
  | [target] => .ok (column (some (.ofTarget target)))
  | _ => .error (.unsupported (t.name ++ "." ++ c.name)
      "a column may reference at most one table")

def indexes (t : DefinedTable) : List DefinedIndex :=
  (t.columns.filter (·.indexed)).map (fun c =>
    ⟨"ix_" ++ t.name ++ "_" ++ c.name, [c.name], c.unique⟩) ++
  t.explicitIndexes.map fun i => { i with columns := i.columns.eraseDups }

def describe (t : DefinedTable) : Except SchemaError (Table × List Index) := do
  let columns ← t.columns.mapM t.describeColumn
  let sorted := t.indexes.mergeSort fun a b => a.name ≤ b.name
  return (⟨t.name, columns⟩, sorted.map fun i => ⟨i.name, t.name, i.columns, i.unique⟩)

def checkColumns (t : DefinedTable) (seen : List String) :
    List DefinedColumn → Except DefinitionFault Unit
  | [] => .ok ()
  | c :: rest =>
    if c.name.isEmpty then .error .namelessColumn
    else if seen.contains c.name then .error (.repeatedColumn t.name c.name)
    else checkColumns t (c.name :: seen) rest

def checkNamed (t : DefinedTable) (constraint : String) (columns : List String) :
    Except DefinitionFault Unit :=
  match columns.find? fun c => (t.column? c).isNone with
  | some c => .error (.unknownConstraintColumn constraint t.name c)
  | none => .ok ()

def check (t : DefinedTable) : Except DefinitionFault Unit := do
  t.checkColumns [] t.columns
  t.uniques.forM (t.checkNamed "UniqueConstraint")
  t.explicitIndexes.forM fun i => t.checkNamed "Index" i.columns

def isBare (t : DefinedTable) : Bool :=
  t.columns.isEmpty && t.uniques.isEmpty && t.explicitIndexes.isEmpty

/-- Checks tables one after another. A table is defined once; to name it again without anything else
gives the same table. -/
def checkAll (seen : List DefinedTable) :
    List DefinedTable → Except DefinitionFault (List DefinedTable)
  | [] => .ok []
  | t :: rest => do
    match seen.find? (·.name == t.name) with
    | some earlier =>
      if t.isBare then return earlier :: (← checkAll seen rest)
      else throw (.repeatedTable t.name)
    | none =>
      t.check
      return t :: (← checkAll (t :: seen) rest)

/-- The type of a column: an untyped one has the type of the column that it refers to. -/
def typeOf (tables : List DefinedTable) : Nat → DefinedColumn → SqlType
  | 0, c => c.type
  | steps + 1, c =>
    let referred := (c.targets.map c.resolve).findSome? fun key =>
      (tables.find? (·.name == key.table)).bind (·.column? key.column)
    match c.type, referred with
    | .untyped, some other => typeOf tables steps other
    | type, _ => type

def accept (tables : List DefinedTable) : Except DefinitionFault (List DefinedTable) := do
  let tables ← checkAll [] tables
  let columns := (tables.flatMap (·.columns)).length
  return tables.map fun t =>
    { t with columns := t.columns.map fun c => { c with type := typeOf tables columns c } }

end DefinedTable

namespace Schema

def ofDefinitions (tables : List DefinedTable) : Except SchemaError Schema := do
  let described ← tables.mapM (·.describe)
  build (described.map (·.1)) (described.flatMap (·.2))

abbrev TableClass := String × Option DefinedTable

def ofClasses (classes : List TableClass) : Except SchemaError Schema := do
  let tables ← classes.mapM fun
    | (_, some t) => .ok t
    | (name, none) => .error (.unsupported name "not a table model")
  ofDefinitions tables

end Schema

end Tablewright
