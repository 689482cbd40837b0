import Tablewright.Statement.Basic
import Tablewright.Text.Doubled

/-! Statements as SQL. A statement becomes a sequence of pieces; its text and its placeholders are
both read off that sequence, so the `k`-th placeholder in the text is the `k`-th in the list. -/

namespace Tablewright

inductive Piece where
  | word (s : String)
  | name (s : String)
  | literal (s : String)
  | hole (p : Param)
deriving Repr

abbrev Sql := List Piece

def quoteIdentifier (s : String) : String := Text.enclose '"' s

namespace Piece

def text : Piece → String
  | word s => s
  | name s => quoteIdentifier s
  | literal s => s
  | hole _ => "?"

def param? : Piece → Option Param
  | hole p => some p
  | _ => none

end Piece

namespace Sql

def text (s : Sql) : String := String.join (s.map (·.text))

def params (s : Sql) : List Param := s.filterMap (·.param?)

def separated (separator : String) (parts : List Sql) : Sql :=
  List.intercalate [.word separator] parts

def commas (parts : List Sql) : Sql := separated ", " parts

end Sql

namespace Value

def literal : Value → Except BuildError String
  | null => .ok "NULL"
  | bool b => .ok (if b then "1" else "0")
  | int n => .ok (toString n)
  | real x =>
    if x.isFinite then .ok x.shown
    else .error (.invalid ("Cannot inline non-finite float " ++ x.shown))
  | text s => .ok (Text.enclose '\'' s)
  | blob bytes => .ok ("X'" ++ Text.hexBytes bytes ++ "'")
  | v => .error (.invalid ("Cannot inline value of type " ++ v.kind))

end Value

def TableColumn.sql (c : TableColumn) : Sql := [.name c.table, .word ".", .name c.name]

def Supply.sql : Supply → Except Failure Sql
  | .param p => .ok [.hole p]
  | .literal v => (v.literal.mapError .build).map fun s => [.literal s]

def Operand.sql : Operand → Except Failure Sql
  | .supply s => s.sql
  | .column c => .ok c.sql

def Comparison.sql (c : Comparison) : Except Failure Sql :=
  c.operand.sql.map fun operand =>
    c.column.sql ++ .word (" " ++ c.operator.text ++ " ") :: operand

def Connective.keyword (k : Connective) : String := " " ++ k.name ++ " "

namespace Predicate

/-- A disjunction among the members of a conjunction is put in parentheses. -/
def embrace (within : Option Connective) (k : Connective) (sql : Sql) : Sql :=
  if k = .or && within = some .and then .word "(" :: sql ++ [.word ")"] else sql

mutual

def sql (within : Option Connective) : Predicate → Except Failure Sql
  | comparison c => c.sql
  | group k items =>
    (memberSql k items).map fun parts => embrace within k (Sql.separated k.keyword parts)
  | stray v => .error (.fault (strayFault v))

def memberSql (k : Connective) : List Predicate → Except Failure (List Sql)
  | [] => .ok []
  | comparison c :: rest =>
    c.sql.bind fun here => (memberSql k rest).map fun others => here :: others
  | group k' items :: rest =>
    if k' = k then
      (memberSql k items).bind fun here => (memberSql k rest).map fun others => here ++ others
    else
      (sql (some k) (group k' items)).bind fun here =>
        (memberSql k rest).map fun others => here :: others
  | stray v :: _ => .error (.fault (strayFault v))

end

end Predicate

def SelectItem.sql : SelectItem → Sql
  | .column c => c.sql
  | .count c =>
    let target := match c.column with
      | none => [.word "*"]
      | some c => c.sql
    .word "COUNT(" :: target ++ [.word ") AS ", .name c.label]

def SelectItem.origin : SelectItem → String × String
  | .column c => (c.table, c.name)
  | .count c => ("", c.label)

def filterSql : Option Predicate → Except Failure Sql
  | none => .ok []
  | some p => (p.sql none).map fun s => .word " WHERE " :: s

def joinsSql : List Join → Except Failure Sql
  | [] => .ok []
  | j :: rest => do
    let on ← j.on.sql none
    let others ← joinsSql rest
    return .word " INNER JOIN " :: .name j.table.name :: .word " ON " :: on ++ others

def suppliesSql : List Supply → Except Failure (List Sql)
  | [] => .ok []
  | s :: rest => do
    let here ← s.sql
    let others ← suppliesSql rest
    return here :: others

def SortKey.sql (k : SortKey) : Sql :=
  k.column.sql ++ [.word (if k.descending then " DESC" else " ASC")]

def returningSql (returning : Bool) : Sql := if returning then [.word " RETURNING *"] else []

namespace Select

/-- The select list; none given means every column of every table in scope. -/
def resultItems (s : Select) : List SelectItem :=
  if s.items.isEmpty then s.tables.flatMap fun t => t.allColumns.map .column else s.items

def sql (s : Select) : Except Failure Sql := do
  let source ← s.check
  let joins ← joinsSql s.joins
  let filter ← filterSql s.filter
  let sorting : Sql :=
    if s.sorting.isEmpty then [] else .word " ORDER BY " :: Sql.commas (s.sorting.map (·.sql))
  let limit : Sql := match s.limit with
    | none => []
    | some n => [.word " LIMIT ", .hole { value := some (.int n) }]
  return .word "SELECT " :: Sql.commas (s.resultItems.map (·.sql)) ++
    .word " FROM " :: .name source.name :: joins ++ filter ++ sorting ++ limit

end Select

def Insert.sql (s : Insert) : Except Failure Sql := do
  if s.assignments.isEmpty then throw (.build (.incomplete "INSERT" "values"))
  let values ← suppliesSql (s.assignments.map (·.2))
  return .word "INSERT INTO " :: .name s.table.name :: .word " (" ::
    Sql.commas (s.assignments.map fun a => [.name a.1.name]) ++
    .word ") VALUES (" :: Sql.commas values ++ .word ")" :: returningSql s.returning

def Update.sql (s : Update) : Except Failure Sql := do
  if s.assignments.isEmpty then throw (.build (.incomplete "UPDATE" "SET values"))
  let values ← suppliesSql (s.assignments.map (·.2))
  let filter ← filterSql s.filter
  let sets := s.assignments.zipWith (fun a v => .name a.1.name :: .word " = " :: v) values
  return .word "UPDATE " :: .name s.table.name :: .word " SET " :: Sql.commas sets ++
    filter ++ returningSql s.returning

def Delete.sql (s : Delete) : Except Failure Sql := do
  let filter ← filterSql s.filter
  return .word "DELETE FROM " :: .name s.table.name :: filter ++ returningSql s.returning

def Column.sql (c : Column) : Sql :=
  [.name c.name, .word (" " ++ c.kind.name)] ++
    (if c.primaryKey then [.word " PRIMARY KEY"] else []) ++
    (if c.unique then [.word " UNIQUE"] else []) ++
    (if c.notNull then [.word " NOT NULL"] else []) ++
    (match c.fallback with
      | none => []
      | some sql => [.word (" DEFAULT " ++ sql)]) ++
    (match c.references with
      | none => []
      | some r => [.word " REFERENCES ", .name r.table, .word "(", .name r.column, .word ")"])

def Ddl.sql : Ddl → Sql
  | .createTable t =>
    .word "CREATE TABLE " :: .name t.name :: .word " (" ::
      Sql.commas (t.columns.map (·.sql)) ++ [.word ")"]
  | .addColumn table c =>
    .word "ALTER TABLE " :: .name table :: .word " ADD COLUMN " :: c.sql
  | .createIndex i =>
    .word ("CREATE " ++ (if i.unique then "UNIQUE " else "") ++ "INDEX IF NOT EXISTS ") ::
      .name i.name :: .word " ON " :: .name i.table :: .word " (" ::
      Sql.commas (i.columns.map fun c => [.name c]) ++ [.word ")"]
  | .dropIndex i => [.word "DROP INDEX IF EXISTS ", .name i.name]

def Statement.sql : Statement → Except Failure Sql
  | .select s => s.sql
  | .insert s => s.sql
  | .update s => s.sql
  | .delete s => s.sql
  | .ddl d => .ok d.sql

end Tablewright
