import Tablewright.Cli.Run
import Tablewright.Proofs.Database.Opening

namespace Tablewright

namespace Database

variable {x : Exchange} {d : Database}

lemma run_catalog (hopen : d.closed = false) :
    catalog.run (x, d) =
      ((Connection.readCatalogOnly.run (x, d.writer)).1,
        (Connection.readCatalogOnly.run (x, d.writer)).2.1,
        { d with writer := (Connection.readCatalogOnly.run (x, d.writer)).2.2 }) := by
  have hensured : ensureOpen.run (x, d) = (.ok (), x, d) := by
    rw [run_ensureOpen, hopen]
    rfl
  rw [catalog, submit, Job.run_bind, hensured]
  rfl

structure Alone (d : Database) : Prop where
  opened : d.closed = false
  readers : d.readers = []
  writer : d.writer.closed = false

lemma Alone.close (h : d.Alone) :
    (close (x, d)).2.1 = x.recordAll [.closed d.writer.number, .disposed] := by
  rw [close_eq, if_neg (by simp [h.opened]), abort_eq]
  simp [partings, closings, h.readers, h.writer]

def migrated (schema : Schema) (settings : DatabaseSettings) (writer : Connection) (plan : Plan) :
    Database :=
  { fresh schema settings (clearCache writer) with lastMigration := some plan }

end Database

namespace Cli

open Database (migrateFirst)

variable {α : Type} {site : Site} {schema : Schema} {settings : DatabaseSettings}
  {work : Job Database α} {x x₁ x₂ : Exchange} {k k' : Connection} {e : Failure} {plan : Plan}

lemma run_withDatabase_of_unopened
    (hopen : (Database.openWith schema settings site.start).run (x, ()) = (.error e, x₁, ())) :
    (withDatabase site schema settings work).run x = (.error (.ofFailure e), x₁) := by
  simp only [ExceptT.run] at hopen
  simp only [withDatabase, ExceptT.run, ExceptT.mk, hopen]

lemma run_withDatabase_of_opened {d : Database}
    (hopen : (Database.openWith schema settings site.start).run (x, ()) = (.ok d, x₁, ())) :
    (withDatabase site schema settings work).run x =
      ((work.run (x₁, d)).1.mapError .ofFailure, (Database.close (work.run (x₁, d)).2).2.1) := by
  simp only [ExceptT.run] at hopen
  simp only [withDatabase, ExceptT.run, ExceptT.mk, hopen]
  rfl

section

variable (hstart : site.start = migrateFirst)

include hstart

lemma run_withDatabase_of_refused
    (hconnect : (Connection.connect .writer settings).run (x, ()) = (.error e, x₁, ())) :
    (withDatabase site schema settings work).run x =
      (.error (.ofFailure e), x₁.record .disposed) := by
  refine run_withDatabase_of_unopened ?_
  rw [hstart, Database.openWith_of_refused migrateFirst hconnect]

lemma run_withDatabase_of_failed
    (hconnect : (Connection.connect .writer settings).run (x, ()) = (.ok k, x₁, ()))
    (hmigrate : (Connection.migrate schema settings.readOnly).run (x₁, k) = (.error e, x₂, k')) :
    (withDatabase site schema settings work).run x =
      (.error (.ofFailure (Database.migrationFailure e)),
        x₂.recordAll [.closed k'.number, .disposed]) := by
  obtain ⟨-, hk', -⟩ := Database.course_of_migrate hconnect hmigrate
  refine run_withDatabase_of_unopened ?_
  rw [hstart, Database.openWith_of_connected migrateFirst hconnect,
    Database.run_migrateFirst_of_error hk' hmigrate]

lemma run_withDatabase_of_migrated
    (hconnect : (Connection.connect .writer settings).run (x, ()) = (.ok k, x₁, ()))
    (hmigrate : (Connection.migrate schema settings.readOnly).run (x₁, k) = (.ok plan, x₂, k')) :
    (withDatabase site schema settings work).run x =
      ((work.run (x₂, Database.migrated schema settings k' plan)).1.mapError .ofFailure,
        (Database.close (work.run (x₂, Database.migrated schema settings k' plan)).2).2.1) := by
  refine run_withDatabase_of_opened ?_
  rw [hstart, Database.openWith_of_connected migrateFirst hconnect,
    Database.run_migrateFirst_of_ok hmigrate]
  rfl

lemma withDatabase_eq_ok {a : α} {x' : Exchange}
    (h : (withDatabase site schema settings work).run x = (.ok a, x')) :
    ∃ k x₁ plan x₂ k', (Connection.connect .writer settings).run (x, ()) = (.ok k, x₁, ()) ∧
      (Connection.migrate schema settings.readOnly).run (x₁, k) = (.ok plan, x₂, k') ∧
      (work.run (x₂, Database.migrated schema settings k' plan)).1 = .ok a ∧
      x' = (Database.close (work.run (x₂, Database.migrated schema settings k' plan)).2).2.1 := by
  rcases hconnect : (Connection.connect .writer settings).run (x, ()) with ⟨e | k, x₁, ⟨⟩⟩
  · rw [run_withDatabase_of_refused hstart hconnect] at h
    cases congrArg Prod.fst h
  · rcases hmigrate : (Connection.migrate schema settings.readOnly).run (x₁, k)
      with ⟨e | plan, x₂, k'⟩
    · rw [run_withDatabase_of_failed hstart hconnect hmigrate] at h
      cases congrArg Prod.fst h
    · rw [run_withDatabase_of_migrated hstart hconnect hmigrate] at h
      exact ⟨k, x₁, plan, x₂, k', rfl, hmigrate, mapError_eq_ok_iff.mp (congrArg Prod.fst h),
        (congrArg Prod.snd h).symm⟩

end

lemma run_bind {β : Type} (talk : Talk α) (next : α → Talk β) (x : Exchange) :
    (talk >>= next).run x =
      match talk.run x with
      | (.ok a, x') => (next a).run x'
      | (.error e, x') => (.error e, x') := by
  simp only [bind, ExceptT.run, ExceptT.bind, ExceptT.mk, StateT.bind]
  rcases talk x with ⟨_ | _, x'⟩ <;> rfl

lemma exists_run_eq_ok {talk : Talk α} {a : α} (h : (talk.run x).1.toOption = some a) :
    ∃ x', talk.run x = (.ok a, x') := by
  rcases hrun : talk.run x with ⟨e | b, x'⟩
  · rw [hrun] at h
    cases h
  · rw [hrun] at h
    obtain rfl := Option.some.inj h
    exact ⟨x', rfl⟩

lemma run_ofExcept {ε : Type} (wrap : ε → Stop) (r : Except ε α) (x : Exchange) :
    (ofExcept wrap r).run x = (r.mapError wrap, x) := by
  cases r <;> rfl

def settingsAt (host : Host) (config : Option String) (path : String)
    (fixed : List (String × Value)) : Except Failure DatabaseSettings :=
  (Settings.load host config
    [(.text "database", record (("path", .text path) :: fixed))]).map (·.database)

def liveSettings (host : Host) (config : Option String) (path : String) :
    Except Failure DatabaseSettings :=
  settingsAt host config path [("create_if_missing", .bool false)]

variable {config : Option String} {path : String}

lemma run_settingsFor (site : Site) (config : Option String) (path : String)
    (fixed : List (String × Value)) (x : Exchange) :
    (settingsFor site config path fixed).run x =
      ((settingsAt site.host config path fixed).mapError .ofFailure, x) := by
  rw [settingsFor, settingsAt, run_bind, run_ofExcept]
  rcases Settings.load site.host config _ with e | s <;> rfl

lemma run_readLive_of_error (hsettings : liveSettings site.host config path = .error e) :
    (readLive site config path).run x = (.error (.ofFailure e), x) := by
  rw [readLive, run_bind, run_settingsFor]
  rw [liveSettings] at hsettings
  rw [hsettings]
  rfl

lemma run_readLive_of_ok (hsettings : liveSettings site.host config path = .ok settings) :
    (readLive site config path).run x = (withDatabase site {} settings Database.catalog).run x := by
  rw [readLive, run_bind, run_settingsFor]
  rw [liveSettings] at hsettings
  rw [hsettings]
  rfl

lemma run_readLive_of_migrated (hstart : site.start = migrateFirst)
    (hsettings : liveSettings site.host config path = .ok settings)
    (hconnect : (Connection.connect .writer settings).run (x, ()) = (.ok k, x₁, ()))
    (hmigrate : (Connection.migrate {} settings.readOnly).run (x₁, k) = (.ok plan, x₂, k')) :
    (readLive site config path).run x =
      ((Connection.readCatalogOnly.run (x₂, Database.clearCache k')).1.mapError .ofFailure,
        (Connection.readCatalogOnly.run (x₂, Database.clearCache k')).2.1.recordAll
          [.closed k'.number, .disposed]) := by
  obtain ⟨-, hk', -⟩ := Database.course_of_migrate hconnect hmigrate
  have hopened : (Database.migrated {} settings k' plan).closed = false := rfl
  rw [run_readLive_of_ok hsettings, run_withDatabase_of_migrated hstart hconnect hmigrate,
    Database.run_catalog hopened, Connection.run_readCatalogOnly,
    Database.Alone.close ⟨rfl, rfl, hk'⟩, Connection.run_readCatalogOnly]
  rfl

lemma computePlan_exchange (schema : Schema) (x : Exchange) :
    ((computePlan site config path schema).run x).2 =
      if site.host.has path then ((readLive site config path).run x).2 else x := by
  rw [computePlan]
  split
  · rw [run_bind]
    rcases (readLive site config path).run x with ⟨_ | live, x'⟩
    · rfl
    · exact congrArg Prod.snd (run_ofExcept _ _ x')
  · exact congrArg Prod.snd (run_ofExcept _ _ x)

end Cli

end Tablewright
