import Tablewright.Schema.Keyed
import Tablewright.Schema.Table

namespace Tablewright

structure LiveSchema where
  tables : Keyed Table := []
  indexes : Keyed Index := []
deriving Repr, DecidableEq

namespace LiveSchema

def ofDescriptions (tables : List Table) (indexes : List Index) : LiveSchema :=
  ⟨Keyed.ofList (·.name) tables, Keyed.ofList (·.name) indexes⟩

def findTable? (s : LiveSchema) (name : String) : Option Table :=
  (s.tables.find? fun e => Text.fold e.1 == Text.fold name).map (·.2)

def hasIndex (s : LiveSchema) (name : String) : Bool :=
  s.indexes.any fun e => Text.fold e.1 == Text.fold name

end LiveSchema

end Tablewright
