import Tablewright.Json.Writer
import Tablewright.Migration.Plan

namespace Tablewright.Cli

inductive Shown where
  | text (markup : String)
  | table (title : Option String) (header : List String) (rows : List (List String))
deriving DecidableEq, Repr

namespace Shown

def marks : List String := ["[green]", "[/green]", "[yellow]", "[/yellow]"]

def lines : Shown → List String
  | text markup => [marks.foldl (fun s mark => s.replace mark "") markup]
  | table title header rows => title.toList ++ (header :: rows).map (String.intercalate "  ")

end Shown

def showPlan (p : Plan) (applied : Bool) : List Shown :=
  if p.isEmpty then [.text "[green]Schema is up to date[/green]"]
  else
    let rows := (p.operations.zipIdx 1).map fun o => [toString o.2, o.1.label, o.1.text]
    let counts := (p.summary.filter fun e => e.2 ≠ 0).map fun e => s!"{e.2} {e.1}"
    let verb := if applied then "Applied" else "Would apply"
    [.table none ["#", "operation", "sql"] rows,
     .text s!"\n{verb} {p.size} operation(s): {commas counts}"]

def constraints (c : Column) : List String :=
  (if c.primaryKey then ["PRIMARY KEY"] else []) ++
    (if c.unique then ["UNIQUE"] else []) ++
    (if c.notNull then ["NOT NULL"] else []) ++
    (c.fallback.map fun d => "DEFAULT " ++ d).toList ++
    (c.references.map fun r => s!"-> {r.table}.{r.column}").toList

def showTable (name : String) (t : Table) : Shown :=
  .table (some name) ["column", "type", "constraints"]
    (t.columns.map fun c => [c.name, c.kind.name, String.intercalate " " (constraints c)])

def showIndexes (indexes : Keyed Index) : Shown :=
  .table (some "indexes") ["name", "table", "columns", "unique"]
    (indexes.map fun e => [e.1, e.2.table, commas e.2.columns, if e.2.unique then "yes" else ""])

def showLive (s : LiveSchema) : List Shown :=
  if s.tables.isEmpty then [.text "[yellow]No tables[/yellow]"]
  else
    s.tables.sorted.map (fun e => showTable e.1 e.2) ++
      if s.indexes.isEmpty then [] else [showIndexes s.indexes.sorted]

def record (fields : List (String × Value)) : Value :=
  .map (fields.map fun f => (.text f.1, f.2))

def optionalText (s : Option String) : Value := (s.map Value.text).getD .null

def columnValue (c : Column) : Value :=
  record [("name", .text c.name), ("kind", .text c.kind.name), ("not_null", .bool c.notNull),
    ("primary_key", .bool c.primaryKey), ("unique", .bool c.unique),
    ("default", optionalText c.fallback),
    ("references", optionalText (c.references.map fun r => r.table ++ "." ++ r.column))]

def indexValue (i : Index) : Value :=
  record [("table", .text i.table), ("columns", .list (i.columns.map .text)),
    ("unique", .bool i.unique)]

def liveValue (s : LiveSchema) : Value :=
  record [("tables", record (s.tables.sorted.map fun e =>
      (e.1, .list (e.2.columns.map columnValue)))),
    ("indexes", record (s.indexes.sorted.map fun e => (e.1, indexValue e.2)))]

end Tablewright.Cli
