import Tablewright.Fault

namespace Tablewright.Markup

inductive Flaw where
  | malformed
  | fault (f : Fault)
deriving DecidableEq, Repr

def Flaw.senseless (reason : String) : Flaw := .fault (.senseless reason)

def orMalformed {α : Type} : Option α → Except Flaw α
  | some a => .ok a
  | none => .error .malformed

end Tablewright.Markup
