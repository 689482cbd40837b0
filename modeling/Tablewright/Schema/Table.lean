import Tablewright.Schema.Column
import Tablewright.Text.CaseFold

namespace Tablewright

structure Table where
  name : String
  columns : List Column
deriving DecidableEq, Repr

namespace Table

def columnNames (t : Table) : List String := t.columns.map (·.name)

def primaryKey? (t : Table) : Option Column :=
  match t.columns.filter (·.primaryKey) with
  | [c] => some c
  | _ => none

def column? (t : Table) (name : String) : Option Column :=
  t.columns.find? fun c => Text.fold c.name == Text.fold name

def referenced (t : Table) : List String :=
  t.columns.filterMap fun c => c.references.map (·.table)

end Table

structure Index where
  name : String
  table : String
  columns : List String
  unique : Bool := false
deriving DecidableEq, Repr

def Index.on (table : String) (columns : List String) (unique : Bool := false) : Index :=
  ⟨String.intercalate "_" (table :: columns), table, columns, unique⟩

structure TableColumn where
  table : String
  column : Column
deriving DecidableEq, Repr

def TableColumn.name (c : TableColumn) : String := c.column.name

def Table.column (t : Table) (c : Column) : TableColumn := ⟨t.name, c⟩

def Table.allColumns (t : Table) : List TableColumn := t.columns.map t.column

end Tablewright
