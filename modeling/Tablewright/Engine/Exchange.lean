import Tablewright.Catalog.Inspection
import Tablewright.Engine.Wording
import Tablewright.Failure

/-! What is said to the engine, and what it answers. The engine itself stays outside: its answers
are given in advance, a queue for each kind of request, and every request is recorded. So does the
clock that is waited by. -/

namespace Tablewright

inductive Request where
  | connect
  | begin
  | execute
  | commit
  | script
deriving DecidableEq, Repr

inductive Reply where
  | done (count : Int)
  | rows (columns : List String) (rows : List (List Value))
  | failed (message : String)
deriving Repr

/-- Something that happened at the engine. Connections are numbered in the order in which they were
asked for; `ok` tells whether the engine did what it was asked. -/
inductive Event where
  | connected (connection : Nat) (ok : Bool)
  | executed (connection : Nat) (sql : String) (values : List Value) (ok : Bool)
  | committed (connection : Nat) (ok : Bool)
  | rolledBack (connection : Nat)
  | ranScript (connection : Nat) (text : String) (ok : Bool)
  | inspected (connection : Nat) (ok : Bool)
  | slept (delay : Double)
  | closed (connection : Nat)
  | disposed
deriving Repr

/-- A request for a prepared statement: which connection was asked for which text, whether its cache
had it, and how many events there had been. -/
structure Lookup where
  connection : Nat
  sql : String
  found : Bool
  moment : Nat
deriving DecidableEq, Repr

structure Exchange where
  replies : Request → List Reply := fun _ => []
  /-- what each look at the catalog finds; the last one counts for all later ones -/
  inspections : List Inspection := []
  attempts : Nat := 0
  opened : Nat := 0
  events : List Event := []
  lookups : List Lookup := []
  clock : Double → Option Fault := fun _ => none
  wording : Lock.Wording := Lock.wording

namespace Reply

def failure? : Reply → Option String
  | failed message => some message
  | _ => none

end Reply

namespace Exchange

/-- The next answer to a kind of request; when there are no more, the engine does what it is
asked. -/
def answer (x : Exchange) (r : Request) : Reply × Exchange :=
  match x.replies r with
  | [] => (.done 0, x)
  | reply :: rest =>
    (reply, { x with replies := fun q => if q = r then rest else x.replies q })

def record (x : Exchange) (e : Event) : Exchange := { x with events := x.events ++ [e] }

def noteLookup (x : Exchange) (connection : Nat) (sql : String) (found : Bool) : Exchange :=
  { x with lookups := x.lookups ++ [⟨connection, sql, found, x.events.length⟩] }

def ask (x : Exchange) (r : Request) (event : Bool → Event) : Reply × Exchange :=
  let (reply, x) := x.answer r
  (reply, x.record (event reply.failure?.isNone))

def inspect (x : Exchange) (connection : Nat) : Inspection × Exchange :=
  let (found, rest) : Inspection × List Inspection := match x.inspections with
    | [] => (.tables [], [])
    | [i] => (i, [i])
    | i :: rest => (i, rest)
  let ok := match found with
    | .tables _ => true
    | .failed _ => false
  (found, { x with inspections := rest }.record (.inspected connection ok))

end Exchange

/-- Work on something that talks to the engine. What was done stays done when the work fails. -/
abbrev Job (σ α : Type) := ExceptT Failure (StateM (Exchange × σ)) α

namespace Job

variable {σ τ α : Type}

abbrev Sure (σ α : Type) := StateM (Exchange × σ) α

def sure (step : Sure σ α) : Job σ α := ExceptT.lift step

def record (e : Event) : Sure σ Unit := modify fun (x, s) => (x.record e, s)

def noteLookup (connection : Nat) (sql : String) (found : Bool) : Sure σ Unit :=
  modify fun (x, s) => (x.noteLookup connection sql found, s)

def ask (r : Request) (event : Bool → Event) : Sure σ Reply :=
  fun (x, s) =>
    let (reply, x) := x.ask r event
    (reply, (x, s))

def subject : Job σ σ := do return (← get).2

def ensuring (job : Job σ α) (after : Sure σ Unit) : Job σ α := ExceptT.mk do
  let r ← job.run
  after
  return r

def undoing (job : Job σ α) (undo : Sure σ Unit) : Job σ α := ExceptT.mk do
  let r ← job.run
  if let .error _ := r then undo
  return r

def reword (f : Failure → Failure) (job : Job σ α) : Job σ α := ExceptT.mk do
  return (← job.run).mapError f

def ofExcept {ε : Type} (wrap : ε → Failure) : Except ε α → Job σ α
  | .ok a => return a
  | .error e => throw (wrap e)

def within (get : τ → σ) (put : σ → τ → τ) (job : Job σ α) : Job τ α := ExceptT.mk fun (x, t) =>
  let (r, x, s) := job.run (x, get t)
  (r, x, put s t)

end Job

end Tablewright
