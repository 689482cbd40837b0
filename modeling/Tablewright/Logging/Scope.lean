import Tablewright.Schema.Keyed
import Tablewright.Value

/-! The statement id that tags what is logged while a statement runs. A scope sets an id when it is
entered and puts back, when it is left, the one that was there before. -/

namespace Tablewright

/-- An id that was given, or one that was made up; those are numbered in the order in which they
were made. -/
inductive StatementId where
  | given (v : Value)
  | made (n : Nat)
deriving Repr

structure Tagging where
  current : Option StatementId := none
  made : Nat := 0
deriving Repr

structure Scope where
  id : StatementId
  saved : Option (Option StatementId) := none
deriving Repr

namespace Tagging

def choose (t : Tagging) (id : Value) : StatementId × Tagging :=
  if id.isTruthy then (.given id, t) else (.made t.made, { t with made := t.made + 1 })

def set (t : Tagging) (id : Value) : StatementId × Tagging :=
  let (id, t) := t.choose id
  (id, { t with current := some id })

def clear (t : Tagging) : Tagging := { t with current := none }

def scope (t : Tagging) (id : Value) : Scope × Tagging :=
  let (id, t) := t.choose id
  ({ id }, t)

def enter (t : Tagging) (s : Scope) : Scope × Tagging :=
  ({ s with saved := some t.current }, { t with current := some s.id })

/-- A scope that is not entered changes nothing when it is left. -/
def leave (t : Tagging) (s : Scope) : Scope × Tagging :=
  match s.saved with
  | some id => ({ s with saved := none }, { t with current := id })
  | none => (s, t)

def tag {α : Type} (t : Tagging) (ofId : StatementId → α) (fields : Keyed α) : Keyed α :=
  match t.current with
  | some id =>
    if (fields.get? "statement_id").isSome then fields else fields.put "statement_id" (ofId id)
  | none => fields

end Tagging

end Tablewright
