import Tablewright.Schema.Keyed
import Tablewright.Schema.Table

namespace Tablewright

def takeFirst? {α : Type} (ready : α → Bool) : List α → Option (α × List α)
  | [] => none
  | a :: rest =>
    if ready a then some (a, rest) else (takeFirst? ready rest).map fun p => (p.1, a :: p.2)

def waitsFor (pending : Keyed Table) (entry : String × Table) : Bool :=
  entry.2.referenced.any fun name =>
    Text.fold name != entry.1 && pending.any (·.1 == Text.fold name)

/-- Places the first table that waits for none until no table is left or all wait. Each round
takes one table away, so as many rounds as there are tables are enough. -/
def placeReady : Nat → Keyed Table → List Table × Keyed Table
  | 0, pending => ([], pending)
  | rounds + 1, pending =>
    match takeFirst? (fun e => !waitsFor pending e) pending with
    | none => ([], pending)
    | some (entry, rest) =>
      let (placed, left) := placeReady rounds rest
      (entry.2 :: placed, left)

/-- Of tables that share a name up to letter case the last one counts, at the place of the
first. -/
def byFoldedName (tables : List Table) : Keyed Table :=
  Keyed.ofList (fun t => Text.fold t.name) tables

structure TableOrder where
  ordered : List Table
  /-- the names of the tables on a cycle of references, or behind one -/
  leftOver : List String
deriving Repr, DecidableEq

/-- Orders tables so that each follows the others it references; ties keep the given order. -/
def orderByReferences (tables : List Table) : TableOrder :=
  let pending := byFoldedName tables
  let (placed, left) := placeReady pending.length pending
  ⟨placed, left.map (·.2.name)⟩

end Tablewright
