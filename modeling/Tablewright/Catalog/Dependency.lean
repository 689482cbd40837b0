import Tablewright.Catalog.Definition

namespace Tablewright

def DefinedColumn.references (tables : List DefinedTable) (t : DefinedTable) (c : DefinedColumn) :
    Except DefinitionFault (List ForeignKey) :=
  c.targets.mapM fun target =>
    let key := c.resolve target
    match tables.find? (·.name == key.table) with
    | none =>
      let column := if target.contains '.' then key.column else "None"
      .error (.unknownTable t.name c.name key.table column)
    | some other =>
      if (other.column? key.column).isSome then .ok key
      else .error (.unknownColumn t.name target key.table key.column)

def DefinedTable.dependencies (t : DefinedTable) (tables : List DefinedTable) :
    Except DefinitionFault (List String) := do
  let keys ← t.columns.mapM (·.references tables t)
  return (keys.flatten.map (·.table)).filter (· != t.name)

def reachable (next : String → List String) : Nat → List String → List String
  | 0, names => names
  | steps + 1, names => names ++ reachable next steps (names.flatMap next).eraseDups

def takeBatches (needs : String → List String) : Nat → List DefinedTable → List DefinedTable
  | 0, remaining => remaining
  | rounds + 1, remaining =>
    let waits (t : DefinedTable) := (needs t.name).any fun n => remaining.any (·.name == n)
    remaining.filter (fun t => !waits t) ++
      (if remaining.all waits then remaining
        else takeBatches needs rounds (remaining.filter waits))

/-- Sorts tables by name, and then so that each follows those it references. A table on a cycle
counts as referencing none. -/
def dependencyOrder (tables : List DefinedTable) :
    Except DefinitionFault (List DefinedTable) := do
  let distinct := Keyed.values (Keyed.ofList DefinedTable.name tables)
  let sorted := distinct.mergeSort fun a b => a.name ≤ b.name
  let needs ← sorted.mapM fun t => do return (t.name, ← t.dependencies sorted)
  let direct (name : String) : List String := (Keyed.get? needs name).getD []
  let onCycle (name : String) : Bool :=
    (reachable direct sorted.length (direct name).eraseDups).contains name
  let binding (name : String) : List String := if onCycle name then [] else direct name
  return takeBatches binding sorted.length sorted

end Tablewright
