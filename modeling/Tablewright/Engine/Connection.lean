import Tablewright.Engine.Exchange
import Tablewright.Engine.StatementCache
import Tablewright.Migration.Plan
import Tablewright.Settings.Model

namespace Tablewright

inductive Role where
  | writer
  | reader
deriving DecidableEq, Repr

def Role.name : Role → String
  | .writer => "writer"
  | .reader => "reader"

/-- A connection: its number among those asked for, and its generation among those made. -/
structure Connection where
  role : Role
  settings : DatabaseSettings
  number : Nat
  generation : Nat
  cache : StatementCache String := {}
  closed : Bool := false

structure ResultSet where
  columns : List String
  rows : List (List Value)
  count : Int
deriving Repr

def DatabaseSettings.backoff (s : DatabaseSettings) (attempt : Nat) : Except Fault Double :=
  let factor := Double.ofInt (Nat.pow 2 attempt)
  if !factor.isFinite then .error .numberTooLarge
  else
    let delay := s.retryBaseDelay.mul factor
    .ok (if s.retryMaxDelay.lt delay then s.retryMaxDelay else delay)

namespace Connection

def beginText : String := "BEGIN IMMEDIATE"

def engineError (sql message : String) (retryable : Bool) : Failure :=
  .execution (.engine sql message retryable)

def connect (role : Role) (settings : DatabaseSettings) : Job Unit Connection := do
  let (x, _) ← get
  let number := x.attempts + 1
  set ({ x with attempts := number }, ())
  match (← Job.sure (Job.ask .connect (.connected number))).failure? with
  | some message => throw (engineError "connect" message false)
  | none =>
    let (x, _) ← get
    set ({ x with opened := x.opened + 1 }, ())
    return { role, settings, number, generation := x.opened + 1 }

def rollback : Job.Sure Connection Unit := do
  let (_, c) ← get
  Job.record (.rolledBack c.number)

def requestOf (sql : String) : Request := if sql = beginText then .begin else .execute

def prepare (sql : String) : Job Connection (Handle String) := do
  return ⟨sql, (← Job.subject).generation⟩

def prepared (sql : String) : Job Connection (Handle String) := do
  let c ← Job.subject
  Job.sure (Job.noteLookup c.number sql (c.cache.contains sql))
  let (h, cache) ← c.cache.getOrPrepare prepare sql
  modify fun (x, c) => (x, { c with cache })
  return h

def execute (h : Handle String) (values : List Value) : Job Connection ResultSet := do
  let (x, c) ← get
  match ← Job.sure (Job.ask (requestOf h.sql) (.executed c.number h.sql values)) with
  | .done count => return ⟨[], [], count⟩
  | .rows columns rows => return ⟨columns, rows, rows.length⟩
  | .failed message =>
    throw (engineError h.sql message (Lock.isLockText (x.wording.text message h.sql values)))

def runScript (script : String) : Job Connection Unit := do
  let c ← Job.subject
  match (← Job.sure (Job.ask .script (.ranScript c.number script))).failure? with
  | some message => throw (engineError script message false)
  | none => return

/-- One attempt to take the write lock. If it fails: what the engine said, and whether the lock was
held elsewhere. -/
def tryBegin : Job Connection (Option (String × Bool)) := do
  let (x, c) ← get
  match (← Job.sure (Job.ask .begin (.executed c.number beginText []))).failure? with
  | none => return none
  | some message =>
    Job.sure rollback
    return some (message, Lock.isLockText (x.wording.text message beginText []))

def wait (attempt : Nat) : Job Connection Unit := do
  let delay ← Job.ofExcept .fault ((← Job.subject).settings.backoff attempt)
  match (← get).1.clock delay with
  | some f => throw (.fault f)
  | none => Job.sure (Job.record (.slept delay))

def beginFrom : (attempt left : Nat) → Job Connection Unit
  | _, 0 => do
    match ← tryBegin with
    | none => return
    | some (message, locked) => throw (engineError beginText message locked)
  | attempt, left + 1 => do
    match ← tryBegin with
    | none => return
    | some (message, locked) =>
      if !locked then throw (engineError beginText message locked)
      wait attempt
      beginFrom (attempt + 1) left

def takeLock : Job Connection Unit := do beginFrom 0 (← Job.subject).settings.maxRetries

def commit : Job Connection Unit := do
  let c ← Job.subject
  match (← Job.sure (Job.ask .commit (.committed c.number))).failure? with
  | some message => throw (engineError "COMMIT" message false)
  | none => return

def readCatalog : Job Connection LiveSchema := do
  let (x, c) ← get
  let (found, x) := x.inspect c.number
  set (x, c)
  match found with
  | .tables tables => return .ofInspected tables
  | .failed message => throw (engineError "catalog" message false)

def invalidate : Job.Sure Connection Nat := do
  let (x, c) ← get
  set (x, { c with cache := c.cache.clear })
  return c.cache.size

def close : Job.Sure Connection Unit := do
  let (x, c) ← get
  if c.closed then return
  set (x.record (.closed c.number), { c with cache := c.cache.clear, closed := true })

def inTransaction {α : Type} (work : Job Connection α) : Job Connection α := do
  takeLock
  Job.undoing (do let a ← work; commit; return a) rollback

def run (c : Compiled) (given : Supplied) : Job Connection ResultSet := do
  let values ← Job.ofExcept id (c.bind given)
  execute (← prepared c.sql) values

def write (c : Compiled) (given : Supplied) : Job Connection ResultSet := do
  let values ← Job.ofExcept id (c.bind given)
  inTransaction (run c (.sequence values))

def read (c : Compiled) (given : Supplied) : Job Connection ResultSet :=
  Job.ensuring (run c given) rollback

def readCatalogOnly : Job Connection LiveSchema := Job.ensuring readCatalog rollback

def ddlFailure (sql : String) : Failure → Failure
  | .execution (.engine _ reason _) => .migration (.ddlFailed sql reason)
  | e => e

/-- Runs the changes of a plan in order; each is prepared anew. -/
def apply : List Ddl → Job Connection Unit
  | [] => return
  | d :: rest => do
    let h ← prepare d.text
    let _ ← Job.reword (ddlFailure d.text) (execute h [])
    apply rest

/-- Brings the database up to a declared schema: looks at the catalog, plans and makes the changes
in one transaction. A connection that only reads must find nothing to change. -/
def migrate (declared : Schema) (readOnly : Bool) : Job Connection Plan :=
  if readOnly then do
    let live ← readCatalogOnly
    let plan ← Job.ofExcept .migration (reconcile declared live)
    match plan.statements with
    | [] => return plan
    | sql :: _ => throw (.migration (.ddlFailed sql "database is read-only"))
  else inTransaction do
    let live ← readCatalog
    let plan ← Job.ofExcept .migration (reconcile declared live)
    apply plan.operations
    return plan

end Connection

end Tablewright
