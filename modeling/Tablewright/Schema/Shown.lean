import Tablewright.Schema.Table
import Tablewright.Text.Shown

namespace Tablewright

def shownBool (b : Bool) : String := if b then "True" else "False"

def shownOption {α : Type} (shown : α → String) : Option α → String
  | none => "None"
  | some a => shown a

def shownParts (name : String) (parts : List (String × String)) : String :=
  name ++ "(" ++ String.intercalate ", " (parts.map fun p => p.1 ++ "=" ++ p.2) ++ ")"

def shownRow (items : List String) : String :=
  match items with
  | [item] => "(" ++ item ++ ",)"
  | items => "(" ++ String.intercalate ", " items ++ ")"

def Kind.shown (k : Kind) : String :=
  "<ColumnKind." ++ k.name ++ ": " ++ Text.shown k.name ++ ">"

def ForeignKey.shown (f : ForeignKey) : String :=
  shownParts "ForeignKey" [("table", Text.shown f.table), ("column", Text.shown f.column)]

def Column.shown (c : Column) : String :=
  shownParts "ColumnDescription"
    [("name", Text.shown c.name), ("kind", c.kind.shown), ("not_null", shownBool c.notNull),
     ("primary_key", shownBool c.primaryKey), ("references", shownOption (·.shown) c.references),
     ("unique", shownBool c.unique), ("default", shownOption Text.shown c.fallback)]

def TableColumn.shown (c : TableColumn) : String :=
  shownParts "ColumnRef" [("table", Text.shown c.table), ("description", c.column.shown)]

def Table.shown (t : Table) : String :=
  let columns := shownRow (t.columns.map (·.shown))
  shownParts "TableRef"
    [("description", shownParts "TableDescription"
      [("name", Text.shown t.name), ("columns", columns)])]

end Tablewright
