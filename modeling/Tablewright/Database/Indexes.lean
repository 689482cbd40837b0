import Tablewright.Database.Query

namespace Tablewright.Database

def checkIndexColumns (i : Index) (table : Table) : List String → Except BuildError Unit
  | [] => .ok ()
  | c :: rest =>
    if (table.column? c).isSome then checkIndexColumns i table rest
    else .error (.unknownColumn i.table c)

def checkIndex (schema : Schema) (i : Index) : Except BuildError Unit :=
  match schema.tables.get? i.table with
  | none => .error (.unknownTable i.table)
  | some t =>
    if i.columns.isEmpty then .error (.invalid s!"Index '{i.name}' has no columns")
    else checkIndexColumns i t i.columns

def createIndex (i : Index) : Job Database Unit := do
  Job.ofExcept .build (checkIndex (← Job.subject).schema i)
  let _ ← execute (.statement (.ddl (.createIndex i))) .nothing

def createIndexOn (table : String) (columns : List String) (unique : Bool) :
    Job Database Index := do
  let i := Index.on table columns unique
  createIndex i
  return i

def dropIndex (i : Index) : Job Database Unit := do
  let _ ← execute (.statement (.ddl (.dropIndex i))) .nothing

def dropIndexNamed (name : String) : Job Database Unit := dropIndex ⟨name, "", [], false⟩

def listIndexes (table : Option String) : Job Database (List Index) := do
  let live ← catalog
  let indexes := live.indexes.values.filter fun i =>
    table.all fun t => Text.fold i.table = Text.fold t
  return indexes.mergeSort fun a b => a.name ≤ b.name

end Tablewright.Database
