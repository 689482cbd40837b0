import Tablewright.Fault
import Tablewright.Text.Shown

namespace Tablewright

abbrev Keyed (α : Type) := List (String × α)

namespace Keyed

variable {α : Type}

/-- Sets a key: one that is there keeps its place, a new one goes to the end. -/
def put (key : String) (value : α) : Keyed α → Keyed α
  | [] => [(key, value)]
  | (k, v) :: rest => if k = key then (k, value) :: rest else (k, v) :: put key value rest

def ofList (key : α → String) (items : List α) : Keyed α :=
  items.foldl (fun entries a => entries.put (key a) a) []

def values (entries : Keyed α) : List α := entries.map (·.2)

def keys (entries : Keyed α) : List String := entries.map (·.1)

def get? (entries : Keyed α) (key : String) : Option α := List.lookup key entries

def demand (entries : Keyed α) (key : String) : Except Fault α :=
  match entries.get? key with
  | some value => .ok value
  | none => .error (.unknownKey (Text.shown key))

def sorted (entries : Keyed α) : Keyed α := entries.mergeSort fun a b => a.1 ≤ b.1

end Keyed

end Tablewright
