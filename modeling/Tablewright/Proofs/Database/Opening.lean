import Tablewright.Proofs.Database.Write

namespace Tablewright

open Connection (Leaves Works)

variable {schema : Schema} {settings : DatabaseSettings} {x x' : Exchange}

namespace Connection

variable {k : Connection}

lemma migrate_on_store (schema : Schema) (readOnly : Bool) (x : Exchange)
    (hk : k.Sound k.number) :
    let out := (migrate schema readOnly).run (x, k)
    ∃ work, out.2.1.events = x.events ++ work ∧ (∀ e ∈ work, e.Of k.number ∧ ¬ e.Bounds) ∧
      ∀ c st, Store.Runs (.quiet c) work st →
        (∀ e, out.1 = .error e → st = .quiet c) ∧
          ∀ plan, out.1 = .ok plan →
            st = .quiet (c ++ plan.operations.map fun d => ⟨d.text, []⟩) := by
  intro out
  have hworks : Works (x, k) out.2 := works_migrate schema readOnly (x, k)
  obtain ⟨work, hevents, hwork⟩ := hworks.events
  obtain ⟨-, work', hevents', hstore⟩ := Leaves.on_store
    (fun c => leaves_job (n := k.number) (c := c) (.migrate schema readOnly))
    (fun w => (works_migrate schema readOnly w).located) (w := (x, k)) hk
  obtain rfl : work' = work := List.append_cancel_left (hevents'.symm.trans hevents)
  refine ⟨work', hevents, hwork, fun c st hst => ?_⟩
  obtain ⟨⟨c', p⟩, hturn, rfl⟩ := hstore c st hst
  obtain rfl : p = none := hturn.closed
  rw [Store.withSession_quiet]
  refine ⟨fun e he => ?_, fun plan hplan => ?_⟩
  · rw [show c' = c from hturn.failed e he]
  · obtain ⟨done, rfl, hc'⟩ := hturn.returned plan hplan
    rw [show c' = _ from hc']

end Connection

namespace Database

def fresh (schema : Schema) (settings : DatabaseSettings) (writer : Connection) : Database :=
  { schema, settings, writer, readsApart := !settings.isMemory && 0 < settings.readPoolSize }

section

variable {x₁ : Exchange} {k : Connection} {e : Failure}

lemma openWith_of_refused (start : Job Database Unit)
    (h : (Connection.connect .writer settings).run (x, ()) = (.error e, x₁, ())) :
    (openWith schema settings start).run (x, ()) = (.error e, x₁.record .disposed, ()) := by
  simp only [ExceptT.run] at h
  simp only [openWith, ExceptT.run, ExceptT.mk, h]

lemma openWith_of_connected (start : Job Database Unit)
    (h : (Connection.connect .writer settings).run (x, ()) = (.ok k, x₁, ())) :
    (openWith schema settings start).run (x, ()) =
      match (Job.undoing start abort).run (x₁, fresh schema settings k) with
      | (.error e, x₂, _) => (.error e, x₂, ())
      | (.ok _, x₂, d) => (.ok d, x₂, ()) := by
  simp only [ExceptT.run] at h
  simp only [openWith, ExceptT.run, ExceptT.mk, h]
  rfl

end

def migrateFirst : Job Database Unit := do let _ ← migrate

section

variable {x₁ x₂ : Exchange} {k k' : Connection} {e : Failure} {plan : Plan}

lemma run_migrate_fresh (x₁ : Exchange) (k : Connection) :
    migrate.run (x₁, fresh schema settings k) =
      let out := (Connection.migrate schema settings.readOnly).run (x₁, k)
      (out.1.mapError migrationFailure, out.2.1,
        { fresh schema settings (clearCache out.2.2) with lastMigration := out.1.toOption }) := by
  have hopen : ensureOpen.run (x₁, fresh schema settings k) =
      (.ok (), x₁, fresh schema settings k) := by
    rw [run_ensureOpen]
    rfl
  rw [migrate, Job.run_subject_bind, Job.run_bind, Job.run_reword, Job.run_bind, hopen]
  simp only [Job.run_ensuring, onWriter, Job.run_within, fresh]
  rcases (Connection.migrate schema settings.readOnly).run (x₁, k) with ⟨e | plan, x₂, k'⟩
  · rfl
  · rfl

lemma run_migrateFirst_of_error (hopen : k'.closed = false)
    (h : (Connection.migrate schema settings.readOnly).run (x₁, k) = (.error e, x₂, k')) :
    (Job.undoing migrateFirst abort).run (x₁, fresh schema settings k) =
      (.error (migrationFailure e), x₂.recordAll [.closed k'.number, .disposed],
        { fresh schema settings { clearCache k' with closed := true } with
          readsApart := false
          closed := true }) := by
  have hpartings : partings (fresh schema settings (clearCache k')) =
      [.closed k'.number, .disposed] := by
    simp [partings, closings, fresh, clearCache, hopen]
  have hshut : shut (clearCache k') = { clearCache k' with closed := true } := by
    rw [shut, if_neg (by simp [clearCache, hopen])]
    rfl
  rw [Job.run_undoing, migrateFirst, Job.run_bind, run_migrate_fresh, h]
  simp only [Except.mapError]
  rw [abort_eq, ← hshut, ← hpartings]
  rfl

lemma run_migrateFirst_of_ok
    (h : (Connection.migrate schema settings.readOnly).run (x₁, k) = (.ok plan, x₂, k')) :
    (Job.undoing migrateFirst abort).run (x₁, fresh schema settings k) =
      (.ok (), x₂, { fresh schema settings (clearCache k') with lastMigration := some plan }) := by
  rw [Job.run_undoing, migrateFirst, Job.run_bind, run_migrate_fresh, h]
  rfl

end

def Course (k : Connection) (x x' : Exchange) (ending : List Event) : Prop :=
  ∃ work, x.since x' = .connected k.number true :: (work ++ ending) ∧
    ∀ e ∈ work, e.Of k.number ∧ ¬ e.Bounds

structure GivenUp (k : Connection) (d : Database) : Prop where
  closed : d.closed = true
  readers : d.readers = []
  number : d.writer.number = k.number
  writer : d.writer.closed = true
  handles : d.writer.cache.handles = []

/-- How an opening ends that raises: no connection was made, or the database was given up. The engine
is disposed of in both cases, after its one connection was closed. -/
inductive Abandoned (schema : Schema) (settings : DatabaseSettings) (x : Exchange) (e : Failure)
    (x' : Exchange) : Prop
  | refused {n x₁} : (Connection.connect .writer settings).run (x, ()) = (.error e, x₁, ()) →
      x.since x' = [.connected n false, .disposed] → Abandoned schema settings x e x'
  | givenUp {k x₁ d} : (Connection.connect .writer settings).run (x, ()) = (.ok k, x₁, ()) →
      (Job.undoing migrateFirst abort).run (x₁, fresh schema settings k) = (.error e, x', d) →
      GivenUp k d → Course k x x' [.closed k.number, .disposed] → Abandoned schema settings x e x'

structure Opened (x x' : Exchange) (d : Database) : Prop where
  opened : d.closed = false
  writer : d.writer.closed = false
  course : Course d.writer x x' []

section

variable {x₁ x₂ : Exchange} {k k' : Connection}

lemma course_of_migrate {r : Except Failure Plan}
    (hconnect : (Connection.connect .writer settings).run (x, ()) = (.ok k, x₁, ()))
    (h : (Connection.migrate schema settings.readOnly).run (x₁, k) = (r, x₂, k')) :
    k'.number = k.number ∧ k'.closed = false ∧
      ∀ ending, (∀ e ∈ ending, e.Harmless) → Course k x (x₂.recordAll ending) ending ∧
        ∀ before st, Store.Runs (.quiet before) (x.since (x₂.recordAll ending)) st →
          (∀ e, r = .error e → st = .quiet before) ∧
            ∀ plan, r = .ok plan →
              st = .quiet (before ++ plan.operations.map fun d => ⟨d.text, []⟩) := by
  obtain ⟨work, hevents, hwork, hstore⟩ := Connection.migrate_on_store schema settings.readOnly x₁
    (Connection.sound_of_connect hconnect)
  have hworks := Connection.works_migrate schema settings.readOnly (x₁, k)
  rw [h] at hevents hstore hworks
  refine ⟨hworks.number, hworks.closed.trans (Connection.connect_number hconnect).2, ?_⟩
  intro ending hending
  have hsince : x.since (x₂.recordAll ending) = .connected k.number true :: (work ++ ending) := by
    refine Exchange.since_eq ?_
    rw [Exchange.recordAll, hevents, (Connection.connect_eq_ok hconnect).2.2, List.append_assoc,
      List.append_assoc]
    rfl
  refine ⟨⟨work, hsince, hwork⟩, fun before st hruns => ?_⟩
  rw [hsince] at hruns
  obtain ⟨m, hm, hruns⟩ := hruns
  obtain rfl := hm.of_harmless trivial
  obtain ⟨m, hm, hruns⟩ := steps_append.mp hruns
  obtain ⟨hfailed, hdone⟩ := hstore before m hm
  refine ⟨fun e he => ?_, fun plan hplan => ?_⟩
  · obtain rfl := hfailed e he
    exact Store.Runs.of_harmless hruns hending
  · obtain rfl := hdone plan hplan
    exact Store.Runs.of_harmless hruns hending

end

namespace Failing

def exchange : Exchange where
  replies
    | .commit => [.failed "disk I/O error"]
    | _ => []

end Failing

end Database

end Tablewright
