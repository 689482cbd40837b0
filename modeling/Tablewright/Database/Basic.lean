import Tablewright.Engine.Connection
import Tablewright.Rows.Mapping

/-! A database opened under a declared schema: one connection that writes, and connections that read
if reads are served apart. Opening brings the database up to the schema. -/

namespace Tablewright

structure Database where
  schema : Schema
  settings : DatabaseSettings
  writer : Connection
  readers : List (Nat × Connection) := []
  readsApart : Bool
  shapes : ShapeCache := []
  closed : Bool := false
  lastMigration : Option Plan := none

namespace Database

def putReader (slot : Nat) (c : Connection) : List (Nat × Connection) → List (Nat × Connection)
  | [] => [(slot, c)]
  | (n, old) :: rest => if n = slot then (n, c) :: rest else (n, old) :: putReader slot c rest

def onWriter {α : Type} (job : Job Connection α) : Job Database α :=
  job.within (·.writer) fun c d => { d with writer := c }

def ensureOpen : Job Database Unit := do
  if (← Job.subject).closed then throw (.execution .closed)

def submit {α : Type} (job : Job Connection α) : Job Database α := do
  ensureOpen
  onWriter job

def clearCache (c : Connection) : Connection := { c with cache := c.cache.clear }

def invalidateCaches : Job.Sure Database Unit := modify fun (x, d) =>
  (x, { d with
    writer := clearCache d.writer
    readers := d.readers.map fun r => (r.1, clearCache r.2) })

def readerConnection (slot : Nat) : Job Database Connection := do
  let (x, d) ← get
  match d.readers.lookup slot with
  | some c => return c
  | none => do
    let (r, x, _) := (Connection.connect .reader d.settings).run (x, ())
    set (x, d)
    let c ← Job.ofExcept id r
    set (x, { d with readers := putReader slot c d.readers })
    return c

def onReader {α : Type} (slot : Nat) (job : Job Connection α) : Job Database α := do
  let c ← readerConnection slot
  job.within (fun d => (d.readers.lookup slot).getD c) fun c d =>
    { d with readers := putReader slot c d.readers }

def abort : Job.Sure Database Unit := do
  let (x, d) ← get
  let (x, _) := d.readers.foldl (fun (x, cs) r =>
    let (_, x, c) := Connection.close.run (x, r.2)
    (x, cs ++ [c])) (x, ([] : List Connection))
  let (_, x, writer) := Connection.close.run (x, d.writer)
  set (x.record .disposed,
    { d with readers := [], writer, readsApart := false, closed := true })

def close : Job.Sure Database Unit := do
  if !(← get).2.closed then abort

/-- Whatever fails besides the plan itself is reported as a failed migration. -/
def migrationFailure : Failure → Failure
  | .migration e => .migration e
  | e =>
    match e.report? with
    | some r => .migration (.ddlFailed "migration" r.message)
    | none => e

def migrate : Job Database Plan := do
  let d ← Job.subject
  let plan ← Job.reword migrationFailure do
    ensureOpen
    Job.ensuring (onWriter (Connection.migrate d.schema d.settings.readOnly)) invalidateCaches
  modify fun (x, d) => (x, { d with lastMigration := some plan })
  return plan

def catalog : Job Database LiveSchema := submit Connection.readCatalogOnly

/-- Runs a script of several statements as it is. It may change the schema, so all caches are
emptied. -/
def runBatch (script : String) : Job Database Unit := do
  ensureOpen
  Job.ensuring (onWriter (Job.ensuring (Connection.runScript script) Connection.rollback))
    invalidateCaches

def openWith (schema : Schema) (settings : DatabaseSettings) (start : Job Database Unit) :
    Job Unit Database := ExceptT.mk fun (x, u) =>
  match (Connection.connect .writer settings).run (x, u) with
  | (.error e, x, _) => (.error e, x.record .disposed, u)
  | (.ok writer, x, _) =>
    let readsApart := !settings.isMemory && 0 < settings.readPoolSize
    match (Job.undoing start abort).run (x, { schema, settings, writer, readsApart }) with
    | (.error e, x, _) => (.error e, x, u)
    | (.ok _, x, d) => (.ok d, x, u)

def openMigrated (schema : Schema) (settings : DatabaseSettings) : Job Unit Database :=
  openWith schema settings do let _ ← migrate

end Database

end Tablewright
