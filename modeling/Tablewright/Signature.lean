import Tablewright.Fault
import Tablewright.Schema.Keyed

namespace Tablewright

/-- What an operation takes. The receiver is the first argument of an operation that belongs to
something; it is always given, and counts. -/
structure Signature where
  operation : String
  receiver : Option String := none
  required : List String := []
  optional : List String := []
  byName : List String := []
  /-- whether any number of further arguments may follow by position -/
  many : Bool := false
  /-- whether arguments of any other name may follow -/
  others : Bool := false

structure Arguments (α : Type) where
  given : Keyed α := []
  more : List α := []
  others : Keyed α := []

namespace Signature

variable {α : Type}

def parameters (s : Signature) : List String := s.required ++ s.optional

def takeNamed (s : Signature) (a : Arguments α) : Keyed α → Except Mismatch (Arguments α)
  | [] => .ok a
  | (name, value) :: rest =>
    if s.receiver = some name || (a.given.get? name).isSome then .error (.repeated name)
    else if (s.parameters ++ s.byName).contains name then
      takeNamed s { a with given := a.given.put name value } rest
    else if s.others then takeNamed s { a with others := a.others.put name value } rest
    else .error (.unknown name)

/-- Matches arguments with parameters. Names are looked at before the number of arguments is, and
that before what is missing. -/
def match? (s : Signature) (positional : List α) (named : Keyed α) :
    Except Mismatch (Arguments α) := do
  let start : Arguments α :=
    { given := s.parameters.zip positional, more := positional.drop s.parameters.length }
  let a ← s.takeNamed start named
  let own := if s.receiver.isSome then 1 else 0
  if !s.many && !a.more.isEmpty then
    let byName := s.byName.countP fun n => (a.given.get? n).isSome
    throw (.tooMany (own + s.required.length) (own + s.parameters.length)
      (own + positional.length) byName)
  let missing := s.required.filter fun n => (a.given.get? n).isNone
  if missing.isEmpty then return a else throw (.missing missing)

def bind (s : Signature) (positional : List α) (named : Keyed α := []) :
    Except Fault (Arguments α) :=
  (s.match? positional named).mapError (.arguments s.operation)

end Signature

def Arguments.get {α : Type} [Inhabited α] (a : Arguments α) (name : String) : α :=
  (a.given.get? name).getD default

end Tablewright
