import Tablewright.Cli.Arguments
import Tablewright.Cli.Report
import Tablewright.Cli.Target
import Tablewright.Database.Query

namespace Tablewright.Cli

/-- What a run leaves: its exit code, its outputs, the least severity that it logs, and the failure
that ended it where it did not report one. -/
structure Outcome where
  exit : Nat
  stdout : String := ""
  stderr : String := ""
  shown : List Shown := []
  severity : Int := 30
  failure : Option Failure := none
deriving Repr

/-- Where a run takes place. `start` is the first work on a database that is opened. -/
structure Site where
  host : Host
  modules : Modules
  start : Job Database Unit := do let _ ← Database.migrate

abbrev Talk (α : Type) := ExceptT Stop (StateM Exchange) α

def ofExcept {ε α : Type} (wrap : ε → Stop) : Except ε α → Talk α
  | .ok a => return a
  | .error e => throw (wrap e)

def withDatabase {α : Type} (site : Site) (schema : Schema) (settings : DatabaseSettings)
    (work : Job Database α) : Talk α := ExceptT.mk fun x =>
  match (Database.openWith schema settings site.start).run (x, ()) with
  | (.error e, x, _) => (.error (.ofFailure e), x)
  | (.ok d, x, _) =>
    let (r, x, _) := (Job.ensuring work Database.close).run (x, d)
    (r.mapError .ofFailure, x)

def settingsFor (site : Site) (config : Option String) (path : String)
    (fixed : List (String × Value)) : Talk DatabaseSettings := do
  let given := record (("path", .text path) :: fixed)
  let s ← ofExcept .ofFailure (Settings.load site.host config [(.text "database", given)])
  return s.database

def readLive (site : Site) (config : Option String) (path : String) : Talk LiveSchema := do
  let settings ← settingsFor site config path [("create_if_missing", .bool false)]
  let nothing ← ofExcept (.ofFailure ∘ .schema) (Schema.build [] [])
  withDatabase site nothing settings Database.catalog

def computePlan (site : Site) (config : Option String) (path : String) (schema : Schema) :
    Talk Plan := do
  let live ←
    if site.host.has path then readLive site config path
    else pure (LiveSchema.ofDescriptions [] [])
  ofExcept (.ofFailure ∘ .migration) (reconcile schema live)

def applyPlan (site : Site) (config : Option String) (path : String) (schema : Schema) :
    Talk Plan := do
  let settings ← settingsFor site config path []
  withDatabase site schema settings do
    match (← Job.subject).lastMigration with
    | some plan => return plan
    | none => throw (.internal "open finished without a migration plan" [])

def runCommand (site : Site) (config : Option String) : Command → Talk (String × List Shown)
  | .inspect path json => do
    let live ← readLive site config path
    if json then return (Json.render 0 (liveValue live) ++ "\n", [])
    else return ("", showLive live)
  | .plan path target => do
    let schema ← ofExcept id (site.modules.schema target)
    return ("", showPlan (← computePlan site config path schema) false)
  | .migrate path target => do
    let schema ← ofExcept id (site.modules.schema target)
    return ("", showPlan (← applyPlan site config path schema) true)

def versionText : String := "rizz, version 0.1.0\n"

def helpText : String :=
  "Usage: rizz [OPTIONS] COMMAND [ARGS]...\n\nCommands:\n  inspect\n  migrate\n  plan\n"

def early {α : Type} (severity : Int) : Asked α → Outcome
  | .help => { exit := 0, stdout := helpText, severity }
  | .version => { exit := 0, stdout := versionText, severity }
  | .broken f => { exit := 1, severity, failure := some (.fault f) }
  | _ => { exit := 2, severity }

def run (site : Site) (args : List String) : StateM Exchange Outcome := do
  match readPreamble site.host args with
  | .done p =>
    let severity : Int := if p.verbose then 10 else 30
    match readCommand site.host p.command p.rest with
    | .done command =>
      match ← (runCommand site p.config command).run with
      | .ok (stdout, shown) => return { exit := 0, stdout, shown, severity }
      | .error (.message s) => return { exit := 1, stderr := "Error: " ++ s ++ "\n", severity }
      | .error (.failure f) => return { exit := 1, severity, failure := some f }
    | asked => return early severity asked
  | asked => return early 30 asked

end Tablewright.Cli
