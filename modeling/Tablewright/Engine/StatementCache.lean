import Tablewright.Fault
import Tablewright.Value

namespace Tablewright

/-- A prepared statement; the generation tells which connection prepared it. -/
structure Handle (κ : Type) where
  sql : κ
  generation : Nat
deriving DecidableEq, Repr

structure StatementCache (κ : Type) where
  handles : List (κ × Handle κ) := []
  hits : Nat := 0
  misses : Nat := 0
deriving DecidableEq, Repr

structure LookupKey where
  value : Value
deriving Repr

namespace LookupKey

instance : BEq LookupKey := ⟨fun a b => a.value.sameKey b.value⟩

def ofValue (v : Value) : Except Fault LookupKey :=
  match v.unhashable? with
  | some kind => .error (.unhashable kind)
  | none => .ok ⟨v⟩

end LookupKey

namespace StatementCache

variable {κ : Type} [BEq κ]

def size (c : StatementCache κ) : Nat := c.handles.length

def contains (c : StatementCache κ) (sql : κ) : Bool := (c.handles.lookup sql).isSome

def getOrPrepare {m : Type → Type} [Monad m] (c : StatementCache κ) (prepare : κ → m (Handle κ))
    (sql : κ) : m (Handle κ × StatementCache κ) :=
  match c.handles.lookup sql with
  | some h => pure (h, { c with hits := c.hits + 1 })
  | none => do
    let h ← prepare sql
    return (h, { c with handles := c.handles ++ [(sql, h)], misses := c.misses + 1 })

def clear (c : StatementCache κ) : StatementCache κ := { c with handles := [] }

end StatementCache

end Tablewright
