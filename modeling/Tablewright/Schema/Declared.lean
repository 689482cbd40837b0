import Tablewright.Failure
import Tablewright.Schema.Order

namespace Tablewright

structure Schema where
  tables : Keyed Table := []
  indexes : Keyed Index := []
deriving Repr, DecidableEq

namespace Schema

def firstRepeat? {α : Type} (key : α → String) (seen : List String) : List α → Option α
  | [] => none
  | a :: rest =>
    if seen.contains (key a) then some a else firstRepeat? key (key a :: seen) rest

def findFolded? (tables : List Table) (name : String) : Option Table :=
  tables.find? fun t => Text.fold t.name == Text.fold name

def checkReferences (tables : List Table) (table : Table) : List Column → Except SchemaError Unit
  | [] => .ok ()
  | c :: rest =>
    match c.references with
    | none => checkReferences tables table rest
    | some target =>
      if ((findFolded? tables target.table).bind (·.column? target.column)).isSome then
        checkReferences tables table rest
      else .error (.danglingForeignKey table.name c.name target)

def checkTable (tables : List Table) (table : Table) : Except SchemaError Unit :=
  match firstRepeat? (fun c : Column => Text.fold c.name) [] table.columns with
  | some c => .error (.duplicateColumn table.name c.name)
  | none =>
    let keys := (table.columns.filter (·.primaryKey)).length
    if keys = 1 then checkReferences tables table table.columns
    else .error (.primaryKeys table.name keys)

def checkTables (tables : List Table) : List Table → Except SchemaError Unit
  | [] => .ok ()
  | t :: rest =>
    match checkTable tables t with
    | .ok () => checkTables tables rest
    | .error e => .error e

def checkIndex (tables : List Table) (index : Index) : Except SchemaError Unit :=
  match findFolded? tables index.table with
  | none => .error (.invalidIndex index.name s!"unknown table '{index.table}'")
  | some table =>
    if index.columns.isEmpty then .error (.invalidIndex index.name "no columns")
    else match index.columns.find? fun c => (table.column? c).isNone with
      | some c =>
        .error (.invalidIndex index.name s!"unknown column '{c}' on '{index.table}'")
      | none => .ok ()

def checkIndexes (tables : List Table) (seen : List String) :
    List Index → Except SchemaError Unit
  | [] => .ok ()
  | i :: rest =>
    if seen.contains (Text.fold i.name) then .error (.duplicateIndex i.name)
    else match checkIndex tables i with
      | .ok () => checkIndexes tables (Text.fold i.name :: seen) rest
      | .error e => .error e

def check (tables : List Table) (indexes : List Index) : Except SchemaError Unit :=
  match firstRepeat? (fun t : Table => Text.fold t.name) [] tables with
  | some t => .error (.duplicateTable t.name)
  | none =>
    match checkTables tables tables with
    | .error e => .error e
    | .ok () =>
      match checkIndexes tables [] indexes with
      | .error e => .error e
      | .ok () =>
        let order := orderByReferences tables
        if order.leftOver.isEmpty then .ok () else .error (.foreignKeyCycle order.leftOver)

def ofDescriptions (tables : List Table) (indexes : List Index) : Schema :=
  ⟨Keyed.ofList (·.name) tables, Keyed.ofList (·.name) indexes⟩

def build (tables : List Table) (indexes : List Index := []) : Except SchemaError Schema :=
  match check tables indexes with
  | .ok () => .ok (ofDescriptions tables indexes)
  | .error e => .error e

def table (s : Schema) (name : String) : Except BuildError Table :=
  match s.tables.get? name with
  | some t => .ok t
  | none => .error (.unknownTable name)

def index (s : Schema) (name : String) : Except BuildError Index :=
  match s.indexes.get? name with
  | some i => .ok i
  | none => .error (.invalid s!"Unknown index '{name}'")

end Schema

def Table.columnNamed (t : Table) (name : String) : Except BuildError TableColumn :=
  match t.column? name with
  | some c => .ok (t.column c)
  | none => .error (.unknownColumn t.name name)

namespace Table

def wholeNames : List (String × String) :=
  [("_table", "TableRef"), ("__slots__", "tuple")] ++
  ["__getattr__", "__init__", "__iter__"].map (·, "function") ++
  ["__delattr__", "__eq__", "__ge__", "__getattribute__", "__gt__", "__hash__", "__le__", "__lt__",
   "__ne__", "__repr__", "__setattr__", "__str__"].map (·, "method-wrapper") ++
  ["__dir__", "__format__", "__getstate__", "__init_subclass__", "__new__", "__reduce__",
   "__reduce_ex__", "__sizeof__", "__subclasshook__"].map (·, "builtin_function_or_method") ++
  ["__doc__", "__module__"].map (·, "str")

def part (t : Table) (name : String) : Except Failure TableColumn :=
  match wholeNames.lookup name with
  | some kind => .error (.fault (.lacks kind "table"))
  | none =>
    if name = "__class__" then .error (.fault (.familyLacks "_Columns" "table"))
    else (t.columnNamed name).mapError .build

end Table

end Tablewright
