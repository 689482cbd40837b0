import Tablewright.Database.Basic

namespace Tablewright

inductive Query where
  | statement (s : Statement)
  | compiled (c : Compiled)
  | other (v : Value)

namespace Query

def compile : Query → Except Failure Compiled
  | statement s => s.compile
  | compiled c => .ok c
  | other v => .error (.build (Term.notAStatement v))

def askRows : Query → Query
  | statement s => statement s.askRows
  | q => q

end Query

namespace Database

def compile (q : Query) : Job Database Compiled := Job.ofExcept id q.compile

/-- Runs a compiled statement. Values that cannot be bound fail before any connection is used; a
change of the schema empties all caches. -/
def run (c : Compiled) (given : Supplied) (slot : Nat := 0) : Job Database ResultSet := do
  let values ← Job.ofExcept id (c.bind given)
  let given := Supplied.sequence values
  ensureOpen
  if c.isWrite then
    let result ← onWriter (Connection.write c given)
    if c.isDdl then Job.sure invalidateCaches
    return result
  else if (← Job.subject).readsApart then onReader slot (Connection.read c given)
  else onWriter (Connection.read c given)

def execute (q : Query) (given : Supplied) (slot : Nat := 0) : Job Database Int := do
  return (← run (← compile q) given slot).count

def fetchAll (q : Query) (into : Option RowTarget) (given : Supplied) (slot : Nat := 0) :
    Job Database (List Value) := do
  let c ← compile q
  let result ← run c given slot
  let (x, d) ← get
  let (rows, shapes) := mapRows d.schema d.shapes result.columns result.rows into c.columns
  set (x, { d with shapes })
  Job.ofExcept id rows

def fetchOne (q : Query) (into : Option RowTarget) (given : Supplied) (slot : Nat := 0) :
    Job Database (Option Value) := do
  return (← fetchAll q into given slot).head?

def returning (q : Query) (into : Option RowTarget) (given : Supplied) (slot : Nat := 0) :
    Job Database Value := do
  let c ← compile q.askRows
  match ← fetchOne (.compiled c) into given slot with
  | some row => return row
  | none => throw (.execution (.noRows c.sql))

/-- Compiles a statement once for many runs, and prepares it where it will run if that is the
writer. -/
def prepare (q : Query) : Job Database Compiled := do
  let c ← compile q
  if c.isWrite || !(← Job.subject).readsApart then
    let _ ← submit (Connection.prepared c.sql)
  return c

end Database

end Tablewright
