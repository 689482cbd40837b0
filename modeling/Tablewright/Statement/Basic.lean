import Tablewright.Schema.Declared
import Tablewright.Statement.Term

namespace Tablewright

inductive SelectItem where
  | column (c : TableColumn)
  | count (c : Count)
deriving Repr

structure Join where
  table : Table
  on : Predicate
deriving Repr

structure SortKey where
  column : TableColumn
  descending : Bool := false
deriving Repr

structure Select where
  items : List SelectItem := []
  source : Option Table := none
  joins : List Join := []
  filter : Option Predicate := none
  sorting : List SortKey := []
  limit : Option Nat := none
deriving Repr

abbrev Assignment := TableColumn × Supply

structure Insert where
  table : Table
  assignments : List Assignment := []
  returning : Bool := false
deriving Repr

structure Update where
  table : Table
  assignments : List Assignment := []
  filter : Option Predicate := none
  returning : Bool := false
deriving Repr

structure Delete where
  table : Table
  filter : Option Predicate := none
  returning : Bool := false
deriving Repr

inductive Ddl where
  | createTable (t : Table)
  | addColumn (table : String) (c : Column)
  | createIndex (i : Index)
  | dropIndex (i : Index)
deriving DecidableEq, Repr

inductive Statement where
  | select (s : Select)
  | insert (s : Insert)
  | update (s : Update)
  | delete (s : Delete)
  | ddl (d : Ddl)
deriving Repr

def checkScope (scope : List String) : List (Except Fault TableColumn) → Except Failure Unit
  | [] => .ok ()
  | .error f :: _ => .error (.fault f)
  | .ok c :: rest =>
    if scope.contains c.table then checkScope scope rest
    else .error (.build (.tableNotInScope c.table))

namespace Select

def tables (s : Select) : List Table := s.source.toList ++ s.joins.map (·.table)

def tableNames (s : Select) : List String := s.tables.map (·.name)

def start (items : List SelectItem) : Select := { items }

def selectFrom (s : Select) (t : Table) : Select := { s with source := some t }

def innerJoin (s : Select) (t : Table) (on : Term) : Except BuildError Select :=
  if s.tableNames.contains t.name then
    .error (.invalid s!"Table '{t.name}' is already part of the query")
  else (on.asPredicate).bind fun p => .ok { s with joins := s.joins ++ [⟨t, p⟩] }

def restrict (s : Select) (p : Predicate) : Except BuildError Select :=
  (Predicate.restrict s.filter p).bind fun q => .ok { s with filter := some q }

def sortBy (s : Select) (column : Term) (descending : Bool) : Except BuildError Select :=
  match column with
  | .column c => .ok { s with sorting := s.sorting ++ [⟨c, descending⟩] }
  | t => .error (.invalid ("ORDER BY needs a table column, got " ++ t.shown))

def limitTo (s : Select) (count : Term) : Except BuildError Select :=
  match count with
  | .value (.int (.ofNat n)) => .ok { s with limit := some n }
  | t => .error (.invalid ("LIMIT must be a non-negative integer, got " ++ t.shown))

def itemColumns (s : Select) : List TableColumn :=
  s.items.filterMap fun | .column c => some c | .count _ => none

def countedColumns (s : Select) : List TableColumn :=
  s.items.filterMap fun | .count c => c.column | .column _ => none

def mentioned (s : Select) : List (Except Fault TableColumn) :=
  (s.itemColumns ++ s.countedColumns).map .ok ++ s.joins.flatMap (·.on.columns) ++
    s.filter.toList.flatMap (·.columns) ++ s.sorting.map fun k => .ok k.column

def check (s : Select) : Except Failure Table :=
  match s.source with
  | none => .error (.build (.incomplete "SELECT" "a FROM table"))
  | some t => (checkScope s.tableNames s.mentioned).map fun _ => t

end Select

def selectItems : List Term → Except BuildError (List SelectItem)
  | [] => .ok []
  | t :: rest => do
    let here ← match t with
      | .table t => .ok (t.allColumns.map .column)
      | .column c => .ok [.column c]
      | .count c => .ok [.count c]
      | t => .error (.invalid ("Cannot select " ++ t.shown))
    let others ← selectItems rest
    return here ++ others

/-- What names a column in a mapping of values: its name in any letter case, or the column. Other
values name none. -/
inductive ColumnKey where
  | name (s : String)
  | column (c : TableColumn)
  | other (v : Value)
deriving Repr

namespace ColumnKey

def ofValue : Value → ColumnKey
  | .text s => name s
  | .column c => column c
  | v => other v

def resolve (table : Table) : ColumnKey → Except Failure TableColumn
  | name s => (table.columnNamed s).mapError .build
  | column c =>
    if c.table = table.name then .ok c else .error (.build (.tableNotInScope c.table))
  | other v => .error (.fault (.lacks v.kind "casefold"))

end ColumnKey

/-- What each key resolves to; a later key for the same column counts. -/
def resolveKeys (table : Table) (resolved : Keyed Supply) :
    List (ColumnKey × Supply) → Except Failure (Keyed Supply)
  | [] => .ok resolved
  | (key, value) :: rest =>
    match key.resolve table with
    | .ok c => resolveKeys table (resolved.put c.name value) rest
    | .error e => .error e

/-- Assigns values to columns of a table, in the order in which the table declares them. -/
def assignments (table : Table) (entries : List (ColumnKey × Supply)) :
    Except Failure (List Assignment) :=
  match resolveKeys table [] entries with
  | .error e => .error e
  | .ok resolved =>
    if resolved.isEmpty then
      .error (.build (.invalid s!"No values given for table '{table.name}'"))
    else .ok (table.allColumns.filterMap fun c => (resolved.get? c.name).map fun v => (c, v))

namespace Term

def assignmentEntries (givenOnly : Bool) : Term → Except BuildError (List (ColumnKey × Supply))
  | map entries => .ok (entries.map fun e => (.ofValue e.1, e.2.asSupply))
  | model m => .ok ((m.entries givenOnly).map fun f => (.name f.1, (Term.value f.2).asSupply))
  | .value (.map entries) =>
    .ok (entries.map fun e => (.ofValue e.1, (Term.value e.2).asSupply))
  | t => .error (.invalid ("Expected a mapping or a model, got " ++ t.shown))

def assignments (table : Table) (givenOnly : Bool) (t : Term) :
    Except Failure (List Assignment) := do
  let entries ← (t.assignmentEntries givenOnly).mapError .build
  Tablewright.assignments table entries

end Term

def Insert.values (s : Insert) (values : Term) : Except Failure Insert := do
  return { s with assignments := ← values.assignments s.table false }

namespace Update

def assign (s : Update) (values : Term) : Except Failure Update := do
  return { s with assignments := ← values.assignments s.table true }

def restrict (s : Update) (p : Predicate) : Except Failure Update := do
  checkScope [s.table.name] p.columns
  return { s with filter := some (← (Predicate.restrict s.filter p).mapError .build) }

end Update

def Delete.restrict (s : Delete) (p : Predicate) : Except Failure Delete := do
  checkScope [s.table.name] p.columns
  return { s with filter := some (← (Predicate.restrict s.filter p).mapError .build) }

namespace Ddl

def label : Ddl → String
  | createTable _ => "CreateTable"
  | addColumn _ _ => "AddColumn"
  | createIndex _ => "CreateIndex"
  | dropIndex _ => "DropIndex"

end Ddl

def Statement.kind : Statement → String
  | select _ => "Select"
  | insert _ => "Insert"
  | update _ => "Update"
  | delete _ => "Delete"
  | ddl d => d.label

inductive Opening where
  | select (items : List Term)
  | insert (table : Term)
  | update (table : Term)
  | delete (table : Term)
  | ddl (d : Ddl)

inductive Step where
  | source (table : Term)
  | innerJoin (table on : Term)
  | restrict (p : Term)
  | sortBy (column : Term) (descending : Bool)
  | limit (count : Term)
  | values (values : Term)
  | assign (values : Term)
  | returning

def Step.name : Step → String
  | source _ => "from_"
  | innerJoin _ _ => "inner_join"
  | restrict _ => "where"
  | sortBy _ _ => "order_by"
  | limit _ => "limit"
  | values _ => "values"
  | assign _ => "set"
  | returning => "returning"

namespace Statement

def start : Opening → Except BuildError Statement
  | .select items => (selectItems items).map fun items => .select (.start items)
  | .insert t => t.asTable.map fun t => .insert { table := t }
  | .update t => t.asTable.map fun t => .update { table := t }
  | .delete t => t.asTable.map fun t => .delete { table := t }
  | .ddl d => .ok (.ddl d)

def step (s : Statement) (c : Step) : Except Failure Statement :=
  match s, c with
  | .select s, .source t => built do return .select (s.selectFrom (← t.asTable))
  | .select s, .innerJoin t on => built do return .select (← s.innerJoin (← t.asTable) on)
  | .select s, .restrict p => built do return .select (← s.restrict (← p.asPredicate))
  | .select s, .sortBy c d => built do return .select (← s.sortBy c d)
  | .select s, .limit n => built do return .select (← s.limitTo n)
  | .insert s, .values v => return .insert (← s.values v)
  | .insert s, .returning => .ok (.insert { s with returning := true })
  | .update s, .assign v => return .update (← s.assign v)
  | .update s, .restrict p => return .update (← s.restrict (← built p.asPredicate))
  | .update s, .returning => .ok (.update { s with returning := true })
  | .delete s, .restrict p => return .delete (← s.restrict (← built p.asPredicate))
  | .delete s, .returning => .ok (.delete { s with returning := true })
  | s, c => .error (.fault (.lacks s.kind c.name))
where
  built {α : Type} (r : Except BuildError α) : Except Failure α := r.mapError .build

/-- A write asked to return the rows it affects; other statements stay as they are. -/
def askRows : Statement → Statement
  | .insert s => .insert { s with returning := true }
  | .update s => .update { s with returning := true }
  | .delete s => .delete { s with returning := true }
  | s => s

end Statement

end Tablewright
