import Tablewright.Proofs.Engine.Discipline
import Tablewright.Proofs.Engine.Willing

namespace Tablewright

namespace Connection

namespace Task

/-- A task may have a result, by what it was given and what a look at the catalog finds. -/
def Allows (found : Inspection) : (t : Task) → t.Result → Prop
  | write c given, _ | read c given, _ => ∃ values, c.bind given = .ok values
  | migrate declared readOnly, plan => ∃ tables, found = .tables tables ∧
      reconcile declared (.ofInspected tables) = .ok plan ∧
      (readOnly = true → Plan.operations plan = [])
  | catalog, live => ∃ tables, found = .tables tables ∧ live = .ofInspected tables
  | warm sql, h => Handle.sql h = sql

variable {t : Task} {w : Exchange × Connection} {n : Nat}

lemma allows_of_run {a : t.Result} (hw : w.2.Sound n) (h : (t.job.run w).1 = .ok a) :
    t.Allows (w.1.inspections.headD (.tables [])) a := by
  have hrun : t.job.run w = (.ok a, (t.job.run w).2) := Prod.ext h rfl
  cases t with
  | write c given =>
    obtain ⟨values, hvalues, -⟩ := Job.run_ofExcept_bind_eq_ok hrun
    exact ⟨values, hvalues⟩
  | read c given =>
    have hread : (run c given).run w = (.ok a, ((run c given).run w).2) := Prod.ext h rfl
    obtain ⟨values, hvalues, -⟩ := Job.run_ofExcept_bind_eq_ok hread
    exact ⟨values, hvalues⟩
  | migrate declared readOnly => exact found_of_migrate hrun
  | catalog =>
    have hread : (readCatalog.run w).1 = .ok a := h
    exact readCatalog_eq_ok (Prod.ext hread rfl)
  | warm sql =>
    obtain ⟨-, new, -, hleft⟩ := leaves_prepared (s := ⟨[], none⟩) sql w hw
    obtain ⟨s, hs⟩ := Session.exists_runs n ⟨[], none⟩ new
    obtain ⟨-, handle, hhandle, hsql⟩ := hleft s hs
    obtain rfl := Except.ok.inj (hhandle.symm.trans h)
    exact hsql

lemma exists_run_eq_ok (hw : w.1.Willing)
    (h : ∃ a, t.Allows (w.1.inspections.headD (.tables [])) a) :
    ∃ a, (t.job.run w).1 = .ok a := by
  obtain ⟨a, ha⟩ := h
  cases t with
  | write c given =>
    obtain ⟨values, hvalues⟩ := ha
    obtain ⟨result, w', hrun, -⟩ := succeeds_write hvalues w hw
    exact ⟨result, congrArg Prod.fst hrun⟩
  | read c given =>
    obtain ⟨values, hvalues⟩ := ha
    obtain ⟨result, w', hrun, -⟩ := succeeds_read hvalues w hw
    exact ⟨result, congrArg Prod.fst hrun⟩
  | migrate declared readOnly =>
    obtain ⟨tables, hfound, hplan, hreadOnly⟩ := ha
    obtain ⟨w', hrun⟩ := run_migrate_of_willing hw hfound hplan hreadOnly
    exact ⟨a, congrArg Prod.fst hrun⟩
  | catalog =>
    obtain ⟨tables, hfound, -⟩ := ha
    exact ⟨_, congrArg Prod.fst (run_readCatalog_of_found hfound)⟩
  | warm sql =>
    obtain ⟨handle, w', hrun, -⟩ := succeeds_prepared sql w hw
    exact ⟨handle, congrArg Prod.fst hrun⟩

end Task

structure Turn where
  task : Task
  engine : Exchange
  outcome : Except Failure task.Result
  before : Session
  after : Session

namespace Turn

def found (u : Turn) : Inspection := u.engine.inspections.headD (.tables [])

def answer (u : Turn) : (t : Task) × Except Failure t.Result := ⟨u.task, u.outcome⟩

structure Disciplined (u : Turn) : Prop where
  keeps : u.task.Keeps u.before.committed u.outcome u.after
  allowed : ∀ a, u.outcome = .ok a → u.task.Allows u.found a
  succeeds : u.engine.Willing → (∃ a, u.task.Allows u.found a) → ∃ a, u.outcome = .ok a

end Turn

/-- Tasks done one after another on a connection, each with the session that it left. -/
inductive Turns : Exchange × Connection → Session → List Turn → Prop
  | done {w s} : Turns w s []
  | next {w s s'} {t : Task} {rest : List Turn} :
      Session.Runs w.2.number s ((t.job.run w).2.1.events.drop w.1.events.length) s' →
      Turns (t.job.run w).2 s' rest → Turns w s (⟨t, w.1, (t.job.run w).1, s, s'⟩ :: rest)

variable {n : Nat}

def answers : List Task → Exchange × Connection → List ((t : Task) × Except Failure t.Result)
  | [], _ => []
  | t :: rest, w => ⟨t, (t.job.run w).1⟩ :: answers rest (t.job.run w).2

lemma Turns.answers_eq {w : Exchange × Connection} {s : Session} {turns : List Turn}
    (h : Turns w s turns) : turns.map Turn.answer = answers (turns.map (·.task)) w := by
  induction h with
  | done => rfl
  | next _ _ ih => exact congrArg (List.cons _) ih

lemma exists_turns (tasks : List Task) (w : Exchange × Connection) (s : Session) :
    ∃ turns, turns.map (·.task) = tasks ∧ Turns w s turns := by
  induction tasks generalizing w s with
  | nil => exact ⟨[], rfl, .done⟩
  | cons t tasks ih =>
    obtain ⟨s', hs'⟩ := Session.exists_runs w.2.number s
      ((t.job.run w).2.1.events.drop w.1.events.length)
    obtain ⟨turns, htasks, hturns⟩ := ih (t.job.run w).2 s'
    refine ⟨_ :: turns, ?_, .next hs' hturns⟩
    rw [List.map_cons, htasks]

lemma Turns.disciplined {w : Exchange × Connection} {turns : List Turn} (h : Turns w s turns)
    (hw : w.2.Sound n) (hs : s.pending = none) : ∀ u ∈ turns, u.Disciplined := by
  induction h with
  | done => exact fun u hu => absurd hu List.not_mem_nil
  | @next w s s' t rest hruns _ ih =>
    obtain ⟨committed, pending⟩ := s
    obtain rfl : pending = none := hs
    obtain ⟨hsound, new, hevents, hleft⟩ := leaves_job (c := committed) t w hw
    rw [hevents, List.drop_left, hw.number] at hruns
    have hkeeps := hleft s' hruns
    intro u hu
    rcases List.mem_cons.mp hu with rfl | hu
    · exact ⟨hkeeps, fun a => Task.allows_of_run hw, Task.exists_run_eq_ok⟩
    · exact ih hsound hkeeps.closed u hu

/-- On a connection that was made, every list of tasks has its runs, one for each way in which the
engine may take its requests; in each of them every task keeps the discipline. -/
theorem turns_disciplined {role : Role} {settings : DatabaseSettings} {x₀ x : Exchange}
    {k : Connection} (hconnect : (connect role settings).run (x₀, ()) = (.ok k, x, ()))
    (committed : List Executed) (tasks : List Task) :
    (∃ turns, turns.map (·.task) = tasks ∧ Turns (x, k) ⟨committed, none⟩ turns) ∧
      ∀ turns, turns.map (·.task) = tasks → Turns (x, k) ⟨committed, none⟩ turns →
        ∀ u ∈ turns, u.Disciplined := by
  have hempty : k.cache.handles = [] := (connect_eq_ok hconnect).1
  have hsound : k.Sound k.number := by
    refine ⟨rfl, fun e he => ?_⟩
    rw [hempty] at he
    cases he
  exact ⟨exists_turns tasks (x, k) _, fun turns _ hturns => hturns.disciplined hsound rfl⟩

namespace Refused

def exchange : Exchange where
  replies
    | .begin => [.done 0, .failed "disk I/O error"]
    | .commit => [.failed "disk I/O error"]
    | _ => []
  inspections := [.tables [], .tables [], .tables [{
    name := "note", columns := [{ name := "text", type := .string, keyPosition := 1 }] }]]

def note : Table := ⟨"note", [{ name := "text", kind := .text, primaryKey := true }]⟩

def declared : Schema := .ofDescriptions [note] []

def adding (text : String) : Compiled where
  sql := "INSERT INTO \"note\" (\"text\") VALUES (?)"
  slots := [⟨0, some (.text text), none⟩]

def notes : Compiled where
  sql := "SELECT \"text\" FROM \"note\""
  slots := []

def tasks : List Task :=
  [.write (adding "a") .nothing, .write (adding "b") .nothing, .catalog, .migrate declared false,
    .migrate declared true, .read notes .nothing, .warm "SELECT 1", .write (adding "c") .nothing]

def connection : Connection := ⟨.writer, {}, 1, 1, {}, false⟩

def connected : Exchange :=
  { exchange with attempts := 1, opened := 1, events := [.connected 1 true] }

end Refused

open Refused in
theorem turns_disciplined_refused :
    (connect .writer {}).run (exchange, ()) = (.ok connection, connected, ()) ∧
      ∃ turns, turns.map (·.task) = tasks ∧ Turns (connected, connection) ⟨[], none⟩ turns ∧
        (∀ u ∈ turns, u.Disciplined) ∧
        turns.map (·.outcome.toBool) = [false, false, true, true, true, true, true, true] ∧
        ∃ u ∈ turns, u.task = .migrate declared false ∧ u.after.committed = u.before.committed ++
          [⟨"CREATE TABLE \"note\" (\"text\" TEXT PRIMARY KEY)", []⟩] := by
  have hconnect : (connect .writer {}).run (exchange, ()) = (.ok connection, connected, ()) := rfl
  obtain ⟨⟨turns, htasks, hturns⟩, hall⟩ := turns_disciplined hconnect [] tasks
  have hdisciplined := hall turns htasks hturns
  have hanswers := hturns.answers_eq
  rw [htasks] at hanswers
  refine ⟨hconnect, turns, htasks, hturns, hdisciplined, ?_, ?_⟩
  · have houtcomes : turns.map (·.outcome.toBool) = (turns.map Turn.answer).map (·.2.toBool) := by
      rw [List.map_map]
      rfl
    rw [houtcomes, hanswers]
    decide +kernel
  · have hplanned :
        ⟨.migrate declared false, .ok ⟨[.createTable note]⟩⟩ ∈ turns.map Turn.answer := by
      rw [hanswers]
      exact List.mem_of_getElem? (i := 3) rfl
    obtain ⟨u, hu, hanswer⟩ := List.mem_map.mp hplanned
    have hkeeps := (hdisciplined u hu).keeps
    obtain ⟨task, engine, outcome, before, after⟩ := u
    cases hanswer
    obtain ⟨done, rfl, hcommitted⟩ := hkeeps.returned _ rfl
    exact ⟨_, hu, rfl, hcommitted⟩

end Connection

end Tablewright
