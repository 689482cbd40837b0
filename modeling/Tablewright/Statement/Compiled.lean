import Tablewright.Statement.Sql

namespace Tablewright

structure Slot where
  position : Nat
  value : Option Value := none
  name : Option String := none
deriving Repr

structure Compiled where
  sql : String
  slots : List Slot := []
  columns : List (String × String) := []
  returnsRows : Bool := false
  isWrite : Bool := false
  isDdl : Bool := false
deriving Repr

/-- Values for a statement: none, one for each slot, some by name, a text or run of bytes, which is
never taken for a sequence, or something of a kind that holds no values. -/
inductive Supplied where
  | nothing
  | sequence (values : List Value)
  | named (values : List (Value × Value))
  | single
  | uncountable (kind : String)
deriving Repr

def Supplied.ofValue : Value → Supplied
  | .null => nothing
  | .list items | .tuple items => sequence items
  | .map entries => named entries
  | .text _ | .codes _ | .blob _ => single
  | v => uncountable v.kind

namespace Sql

def slots (s : Sql) : List Slot :=
  s.params.zipIdx.map fun p => ⟨p.2, p.1.value, p.1.name⟩

end Sql

namespace Statement

def resultColumns : Statement → List (String × String)
  | .select s => s.resultItems.map (·.origin)
  | .insert s => if s.returning then ofTable s.table else []
  | .update s => if s.returning then ofTable s.table else []
  | .delete s => if s.returning then ofTable s.table else []
  | .ddl _ => []
where
  ofTable (t : Table) : List (String × String) := t.columnNames.map fun c => (t.name, c)

def returnsRows : Statement → Bool
  | .select _ => true
  | .insert s => s.returning
  | .update s => s.returning
  | .delete s => s.returning
  | .ddl _ => false

def isWrite : Statement → Bool
  | .select _ => false
  | _ => true

def isDdl : Statement → Bool
  | .ddl _ => true
  | _ => false

def compile (s : Statement) : Except Failure Compiled :=
  s.sql.map fun sql =>
    ⟨sql.text, sql.slots, s.resultColumns, s.returnsRows, s.isWrite, s.isDdl⟩

end Statement

namespace Slot

def label (s : Slot) : String :=
  match s.name with
  | some name => if name.isEmpty then toString s.position else name
  | none => toString s.position

/-- The value of a slot: the one given for its name, else the one it was built with. -/
def fill (given : List (Value × Value)) (s : Slot) : Option Value :=
  (s.name.bind fun name => Value.find? name given).or s.value

end Slot

namespace Compiled

def fillAll (sql : String) (given : List (Value × Value)) :
    List Slot → Except Failure (List Value)
  | [] => .ok []
  | s :: rest =>
    match s.fill given with
    | none => .error (.execution (.unboundParameter sql s.label))
    | some v => (fillAll sql given rest).map (v :: ·)

def bind (c : Compiled) : Supplied → Except Failure (List Value)
  | .nothing => fillAll c.sql [] c.slots
  | .named given => fillAll c.sql given c.slots
  | .sequence values =>
    if values.length = c.slots.length then .ok values
    else .error (.execution (.bindingMismatch c.sql c.slots.length values.length))
  | .single => .error (.execution (.bindingMismatch c.sql c.slots.length 1))
  | .uncountable kind => .error (.fault (.uncountable kind))

end Compiled

end Tablewright
