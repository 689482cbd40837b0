import Tablewright.Catalog.Dependency
import Tablewright.Value

namespace Tablewright.Cli

inductive Declaration where
  | schema (s : Schema)
  | metadata (tables : List DefinedTable)
  | classes (classes : List Schema.TableClass)
  | names (entries : List (String × Declaration))
  | value (v : Value)

/-- Why a command ends: with a message, or with a failure that is not reported. -/
inductive Stop where
  | message (s : String)
  | failure (f : Failure)

def Stop.ofFailure (f : Failure) : Stop :=
  match f.report? with
  | some r => .message r.line
  | none => .failure f

abbrev Modules := Keyed (Keyed Declaration)

namespace Declaration

def kind : Declaration → String
  | schema _ => "SchemaModel"
  | metadata _ => "MetaData"
  | classes _ => "list"
  | names _ => "SimpleNamespace"
  | value v => v.kind

def mapOver (names : List String) : Declaration :=
  value (.map (names.map fun name => (.text name, .null)))

def ofKind (kind name : String) : Value := .thing ⟨kind, name, name⟩

def partOf (n : Int) : String → Option Declaration
  | "real" | "numerator" => some (value (.int n))
  | "imag" => some (value (.int 0))
  | "denominator" => some (value (.int 1))
  | _ => none

def attribute? (d : Declaration) (name : String) : Option Declaration :=
  match d, name with
  | names inner, _ => Keyed.get? inner name
  | schema s, "tables" => some (mapOver s.tables.keys)
  | schema s, "indexes" => some (mapOver s.indexes.keys)
  | schema _, "table" | schema _, "index" | schema _, "build" => some (value (ofKind "method" name))
  | metadata tables, "tables" => some (mapOver (tables.map (·.name)))
  | metadata tables, "sorted_tables" =>
    some (value (.list (tables.map fun t => ofKind "Table" t.name)))
  | value (.int n), _ => partOf n name
  | value (.bool b), _ => partOf (if b then 1 else 0) name
  | value (.real x), "real" => some (value (.real x))
  | value (.real _), "imag" => some (value (.real Double.zero))
  | _, _ => none

def follow (d : Declaration) : List String → Option Declaration
  | [] => some d
  | name :: rest => (d.attribute? name).bind (follow · rest)

/-- Only classes can be the items of a list of classes; other things do not even have a name. -/
def ofItems : List Value → Except Stop Schema
  | [] => (Schema.build [] []).mapError fun e => .ofFailure (.schema e)
  | v :: _ => .error (.failure (.fault (.lacks v.kind "__name__")))

def toSchema (target : String) : Declaration → Except Stop Schema
  | schema s => .ok s
  | metadata tables => do
    let order ← (dependencyOrder tables).mapError fun e => .failure (.fault (.definition e))
    report (Schema.ofDefinitions order)
  | classes given => report (Schema.ofClasses given)
  | value (.list items) => ofItems items
  | value (.map entries) => ofItems (entries.map (·.1))
  | value (.blob bytes) => ofItems (bytes.map fun b => .int b.toNat)
  | d => .error (.message
      s!"'{target}' is a {d.kind}, expected a SchemaModel, MetaData or model list")
where
  report (r : Except SchemaError Schema) : Except Stop Schema :=
    r.mapError fun e => .ofFailure (.schema e)

end Declaration

namespace Modules

def find (modules : Modules) (name : String) : Except String (Keyed Declaration) :=
  match modules.get? name with
  | some names => .ok names
  | none =>
    let first := (Text.split '.' name).headD ""
    if (modules.get? first).isSome then
      let second := first ++ "." ++ ((Text.split '.' name).getD 1 "")
      .error s!"No module named {Text.shown second}; {Text.shown first} is not a package"
    else .error s!"No module named {Text.shown first}"

def schema (modules : Modules) (target : String) : Except Stop Schema := do
  match Text.cutFirst ':' target.toList with
  | some (m@(_ :: _), a@(_ :: _)) =>
    let name := String.ofList m
    let path := String.ofList a
    if ".".isPrefixOf name then .error (.failure (.fault (.outsidePackage name)))
    else
      let names ← (modules.find name).mapError fun e =>
        .message s!"Cannot import '{name}': {e}"
      match (Declaration.names names).follow (Text.split '.' path) with
      | some d => d.toSchema target
      | none => .error (.message s!"'{name}' has no attribute '{path}'")
  | _ => .error (.message s!"Schema must be given as module:attr, got '{target}'")

end Modules

end Tablewright.Cli
