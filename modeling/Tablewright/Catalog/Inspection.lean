import Tablewright.Catalog.SqlType
import Tablewright.Schema.Live

namespace Tablewright

structure InspectedColumn where
  name : String
  type : SqlType
  nullable : Bool := true
  /-- the place of the column in the primary key, from one on -/
  keyPosition : Int := 0
  fallback : Option String := none
deriving Repr

structure InspectedIndex where
  name : Option String
  /-- an expression has no column name -/
  columns : List (Option String)
  unique : Bool := false
deriving Repr

structure InspectedKey where
  columns : List String
  table : String
  referred : List String
deriving Repr

structure InspectedTable where
  name : String
  columns : List InspectedColumn
  indexes : List InspectedIndex := []
  uniques : List (List String) := []
  foreignKeys : List InspectedKey := []
deriving Repr

inductive Inspection where
  | tables (tables : List InspectedTable)
  | failed (message : String)
deriving Repr

namespace InspectedIndex

def autoStart : String := "sqlite_autoindex_"

def isAuto (i : InspectedIndex) : Bool :=
  match i.name with
  | some name => autoStart.toList.isPrefixOf name.toList
  | none => false

/-- The column of a unique automatic index over one column. A uniqueness constraint on a column
shows in no other way. -/
def uniqueColumn? (i : InspectedIndex) : Option String :=
  match i.columns with
  | [some c] => if i.isAuto && i.unique then some c else none
  | _ => none

/-- The index as it would be declared; one without name or columns, and one that the engine made,
would not be. -/
def describe? (table : String) (i : InspectedIndex) : Option Index :=
  let columns := i.columns.filterMap id
  match i.name with
  | none => none
  | some name =>
    if i.isAuto || columns.isEmpty then none else some ⟨name, table, columns, i.unique⟩

end InspectedIndex

namespace InspectedTable

def uniqueColumns (t : InspectedTable) : List String :=
  t.uniques.filterMap (fun | [c] => some c | _ => none) ++ t.indexes.filterMap (·.uniqueColumn?)

/-- The reference of a column: of several the last, and only keys of one column count. -/
def reference? (t : InspectedTable) (column : String) : Option ForeignKey :=
  (t.foreignKeys.reverse.filterMap fun k =>
    match k.columns, k.referred with
    | [c], target :: _ => if c = column then some ⟨k.table, target⟩ else none
    | _, _ => none).head?

def describeColumn (t : InspectedTable) (c : InspectedColumn) : Column :=
  let isKey := c.keyPosition != 0
  { name := c.name
    kind := c.type.kind
    notNull := !c.nullable
    primaryKey := isKey
    references := t.reference? c.name
    unique := t.uniqueColumns.contains c.name && !isKey
    fallback := c.fallback }

def describe (t : InspectedTable) : Table := ⟨t.name, t.columns.map t.describeColumn⟩

def describeIndexes (t : InspectedTable) : List Index := t.indexes.filterMap (·.describe? t.name)

end InspectedTable

def LiveSchema.ofInspected (tables : List InspectedTable) : LiveSchema :=
  .ofDescriptions (tables.map (·.describe)) (tables.flatMap (·.describeIndexes))

end Tablewright
