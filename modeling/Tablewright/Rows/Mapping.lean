import Tablewright.Rows.Shape

namespace Tablewright

abbrev Pick := String × Nat

namespace PlainShape

def positions (columns : List String) (offset : Nat) (name : String) : List Nat :=
  (columns.zipIdx offset).filterMap fun c =>
    if Text.fold c.1 = Text.fold name then some c.2 else none

def picks (s : PlainShape) (columns : List String) (offset : Nat) :
    List FieldMapping → Except ShapeError (List Pick)
  | [] => .ok []
  | f :: rest =>
    match positions columns offset f.column with
    | [] =>
      if f.required then .error (.missingColumn s.model.name f.column f.column)
      else picks s columns offset rest
    | [i] => (picks s columns offset rest).map fun others => (f.column, i) :: others
    | _ => .error (.ambiguousColumn s.model.name f.column)

def foldedSorted (names : List String) : List String :=
  (names.map Text.fold).mergeSort fun a b => a ≤ b

/-- Where the fields find their values among the columns that start at `offset`. A model that
stands for a table needs exactly that table's columns, in any order. -/
def resolve (s : PlainShape) (columns : List String) (offset : Nat) :
    Except ShapeError (List Pick) :=
  match s.table with
  | none => s.picks columns offset s.fields
  | some t =>
    if foldedSorted t.columnNames = foldedSorted columns then s.picks columns offset s.fields
    else .error (.columnSet s.model.name t.name t.columnNames columns)

def pickAll (row : List Value) : List Pick → Except Fault (List (String × Value))
  | [] => .ok []
  | (key, i) :: rest =>
    match row[i]? with
    | some v => (pickAll row rest).map fun others => (key, v) :: others
    | none => .error (.pastEnd "tuple")

def buildRow (s : PlainShape) (picks : List Pick) (row : List Value) : Except Failure Value :=
  match pickAll row picks with
  | .error f => .error (.fault f)
  | .ok values => (s.model.accept values).mapError fun issues =>
    .shape (.invalidRow s.model.name issues)

end PlainShape

abbrev PartPicks := String × PlainShape × List Pick

def resolveParts (offset : Nat) :
    List (String × PlainShape) → List String → Except ShapeError (List PartPicks)
  | [], _ => .ok []
  | (key, s) :: rest, columns =>
    (s.resolve (columns.take s.width) offset).bind fun picks =>
      (resolveParts (offset + s.width) rest (columns.drop s.width)).map fun others =>
        (key, s, picks) :: others

inductive Resolved where
  | plain (s : PlainShape) (picks : List Pick)
  | composite (model : Model) (parts : List PartPicks)

def Shape.resolve (s : Shape) (columns : List String) : Except ShapeError Resolved :=
  match s with
  | .plain p => (p.resolve columns 0).map (.plain p)
  | .composite m parts =>
    if s.width = columns.length then (resolveParts 0 parts columns).map (.composite m)
    else .error (.width m.name s.width columns.length)

def buildParts (row : List Value) : List PartPicks → Except Failure (List (String × Value))
  | [] => .ok []
  | (key, s, picks) :: rest =>
    (s.buildRow picks row).bind fun v =>
      (buildParts row rest).map fun others => (key, v) :: others

def Resolved.build (r : Resolved) (row : List Value) : Except Failure Value :=
  match r with
  | .plain s picks => s.buildRow picks row
  | .composite m parts =>
    match buildParts row parts with
    | .error e => .error e
    | .ok fields => (m.accept fields).mapError .misfit

def firstDuplicate? (items : List String) : Option String :=
  items.find? fun a => 1 < items.count a

def ambiguousRow (column : String) : ShapeError := .ambiguousColumn "dict row" column

def rowKey (columns : List String) (column : String) (table : String) :
    Except ShapeError String :=
  if columns.count column = 1 then .ok column
  else if table.isEmpty then .error (ambiguousRow column)
  else .ok (table ++ "." ++ column)

def qualifiedKeys (columns : List String) : List (String × String × String) →
    Except ShapeError (List String)
  | [] => .ok []
  | (column, table, _) :: rest =>
    (rowKey columns column table).bind fun here =>
      (qualifiedKeys columns rest).map fun others => here :: others

/-- The keys of rows that are mapped onto no model. A name that occurs once is its own key. -/
def rowKeys (columns : List String) (sources : List (String × String)) :
    Except ShapeError (List String) :=
  match firstDuplicate? columns with
  | none => .ok columns
  | some duplicate =>
    if sources.length = columns.length then
      (qualifiedKeys columns (columns.zip sources)).bind fun keys =>
        match firstDuplicate? keys with
        | none => .ok keys
        | some key => .error (ambiguousRow key)
    else .error (ambiguousRow duplicate)

def mapRow (keys : List String) (row : List Value) : Except Fault Value :=
  if row.length = keys.length then .ok (Value.mapOf ((keys.zip row).map fun e => (.text e.1, e.2)))
  else .error (.unevenRow (keys.length < row.length))

def mapAll (keys : List String) : List (List Value) → Except Fault (List Value)
  | [] => .ok []
  | row :: rest =>
    (mapRow keys row).bind fun v => (mapAll keys rest).map fun others => v :: others

def buildAll (r : Resolved) : List (List Value) → Except Failure (List Value)
  | [] => .ok []
  | row :: rest =>
    (r.build row).bind fun v => (buildAll r rest).map fun others => v :: others

def mapRows (schema : Schema) (cache : ShapeCache) (columns : List String)
    (rows : List (List Value)) (target : Option RowTarget) (sources : List (String × String)) :
    Except Failure (List Value) × ShapeCache :=
  match target with
  | none =>
    match rowKeys columns sources with
    | .ok keys => ((mapAll keys rows).mapError .fault, cache)
    | .error e => (.error (.shape e), cache)
  | some target =>
    match shapeOf schema cache target with
    | (.error e, cache) => (.error (.shape e), cache)
    | (.ok s, cache) =>
      match s.resolve columns with
      | .error e => (.error (.shape e), cache)
      | .ok r => (buildAll r rows, cache)

end Tablewright
