import Mathlib.Logic.Relation
import Tablewright.Proofs.Database.Freshness
import Tablewright.Proofs.Engine.Located

/-! What a database does step by step. Each step is work on one of its connections, a connection made
or all of them closed, or a change of what it keeps for itself; everything that a database is asked
to do is a walk of such steps, so what each step keeps is kept by all of them. -/

namespace Tablewright

open Job (Moves)

namespace Connection

inductive Errand where
  | task (t : Task)
  | script (text : String)

namespace Errand

def Result : Errand → Type
  | task t => t.Result
  | script _ => Unit

def job : (e : Errand) → Job Connection e.Result
  | task t => t.job
  | script text => Job.ensuring (runScript text) rollback

end Errand

lemma works_job (t : Task) : Moves Works t.job := by
  cases t with
  | write c given => exact works_write c given
  | read c given => exact works_read c given
  | migrate declared readOnly => exact works_migrate declared readOnly
  | catalog => exact works_readCatalogOnly
  | warm sql => exact works_prepared sql

lemma works_errand (e : Errand) : Moves Works e.job := by
  cases e with
  | task t => exact works_job t
  | script text => exact .ensuring (works_runScript text) Works.rollback

def Served (w w' : Exchange × Connection) : Prop := ∃ e : Errand, (e.job.run w).2 = w'

lemma Served.works {w w' : Exchange × Connection} (h : Served w w') : Works w w' := by
  obtain ⟨e, rfl⟩ := h
  exact works_errand e w

end Connection

namespace Database

open Connection (Errand Served)

inductive Step : Exchange × Database → Exchange × Database → Prop
  | writer {x x' d k} : Served (x, d.writer) (x', k) → Step (x, d) (x', { d with writer := k })
  | reader {x x' d slot k k'} : d.readers.lookup slot = some k → Served (x, k) (x', k') →
      Step (x, d) (x', { d with readers := putReader slot k' d.readers })
  | joined {x x' d slot k} : d.readsApart = true → d.readers.lookup slot = none →
      (Connection.connect .reader d.settings).run (x, ()) = (.ok k, x', ()) →
      Step (x, d) (x', { d with readers := putReader slot k d.readers })
  | refused {x x' d e} : (Connection.connect .reader d.settings).run (x, ()) = (.error e, x', ()) →
      Step (x, d) (x', d)
  | cleared {w} : Step w (invalidateCaches w).2
  | noted {x d shapes lastMigration} : Step (x, d) (x, { d with shapes, lastMigration })
  | aborted {w} : Step w (abort w).2

def Walks : Exchange × Database → Exchange × Database → Prop := Relation.ReflTransGen Step

instance : IsPreorder (Exchange × Database) Walks where
  refl _ := .refl
  trans _ _ _ := .trans

lemma Walks.along {R : Exchange × Database → Exchange × Database → Prop}
    [IsPreorder (Exchange × Database) R] (hstep : ∀ w w', Step w w' → R w w')
    {w w' : Exchange × Database} (h : Walks w w') : R w w' := by
  induction h with
  | refl => exact refl_of R w
  | tail _ hlast ih => exact trans_of R ih (hstep _ _ hlast)

lemma walks_onWriter (e : Errand) : Moves Walks (onWriter e.job) := fun w =>
  .single (.writer (x := w.1) (d := w.2) ⟨e, rfl⟩)

lemma walks_invalidateCaches (w : Exchange × Database) : Walks w (invalidateCaches w).2 :=
  .single .cleared

lemma walks_ensureOpen : Moves Walks ensureOpen := by
  refine .subject_bind fun w => ?_
  cases w.2.closed with
  | true => exact .refl
  | false => exact .refl

lemma walks_onReader (slot : Nat) (e : Errand) {w : Exchange × Database}
    (h : w.2.readsApart = true) : Walks w ((onReader slot e.job).run w).2 := by
  obtain ⟨x, d⟩ := w
  have hwork : ∀ (x : Exchange) (d : Database) (k : Connection), d.readers.lookup slot = some k →
      Walks (x, d) ((e.job.within (fun d => (d.readers.lookup slot).getD k) fun c d =>
        { d with readers := putReader slot c d.readers }).run (x, d)).2 := by
    intro x d k hk
    rw [Job.run_within]
    exact .single (.reader hk ⟨e, by rw [hk]; rfl⟩)
  rw [onReader, Job.run_bind, run_readerConnection]
  cases hlookup : d.readers.lookup slot with
  | some k => exact hwork x d k hlookup
  | none =>
    simp only
    rcases hconnect : (Connection.connect .reader d.settings).run (x, ()) with ⟨error | k, x', ⟨⟩⟩
    · exact .single (.refused hconnect)
    · exact .trans (.single (.joined h hlookup hconnect)) (hwork x' _ k (lookup_putReader slot k _))

lemma walks_submit (e : Errand) : Moves Walks (submit e.job) :=
  .bind walks_ensureOpen fun _ => walks_onWriter e

lemma walks_migrate : Moves Walks migrate := by
  refine .subject_bind fun w => ?_
  let errand : Errand := .task (.migrate w.2.schema w.2.settings.readOnly)
  have hchange : Moves Walks (do
      ensureOpen
      Job.ensuring (onWriter errand.job) invalidateCaches) :=
    .bind walks_ensureOpen fun _ => .ensuring (walks_onWriter errand) walks_invalidateCaches
  refine Job.move_bind (hchange.reword migrationFailure w) fun plan => ?_
  exact .bind (fun w => .single (.noted (x := w.1) (d := w.2))) fun _ => .pure plan

lemma walks_runBatch (script : String) : Moves Walks (runBatch script) :=
  .bind walks_ensureOpen fun _ =>
    .ensuring (walks_onWriter (.script script)) walks_invalidateCaches

lemma walks_catalog : Moves Walks catalog := walks_submit (.task .catalog)

lemma walks_run (c : Compiled) (given : Supplied) (slot : Nat) :
    Moves Walks (run c given slot) := by
  refine .bind (.ofExcept _ _) fun values => .bind walks_ensureOpen fun _ => ?_
  split
  · refine .bind (walks_onWriter (.task (.write c _))) fun result => ?_
    split
    · exact .bind walks_invalidateCaches fun _ => .pure result
    · exact .pure result
  · refine .subject_bind fun w => ?_
    split
    · next happart => exact walks_onReader slot (.task (.read c _)) happart
    · exact walks_onWriter (.task (.read c _)) w

lemma walks_compile {α : Type} (q : Query) {next : Compiled → Job Database α}
    (h : ∀ c, Moves Walks (next c)) : Moves Walks (compile q >>= next) :=
  .bind (.ofExcept _ _) h

lemma walks_execute (q : Query) (given : Supplied) (slot : Nat) :
    Moves Walks (execute q given slot) :=
  walks_compile q fun c => .bind (walks_run c given slot) fun _ => .pure _

lemma walks_fetchAll (q : Query) (into : Option RowTarget) (given : Supplied) (slot : Nat) :
    Moves Walks (fetchAll q into given slot) := by
  refine walks_compile q fun c => .bind (walks_run c given slot) fun result => ?_
  rintro ⟨x, d⟩
  simp only [Job.run_bind, Job.run_get, Job.run_set, Job.run_ofExcept]
  exact .single .noted

lemma walks_fetchOne (q : Query) (into : Option RowTarget) (given : Supplied) (slot : Nat) :
    Moves Walks (fetchOne q into given slot) :=
  .bind (walks_fetchAll q into given slot) fun _ => .pure _

lemma walks_returning (q : Query) (into : Option RowTarget) (given : Supplied) (slot : Nat) :
    Moves Walks (returning q into given slot) := by
  refine walks_compile _ fun c => ?_
  refine .bind (walks_fetchOne (.compiled c) into given slot) fun r => ?_
  cases r with
  | some row => exact .pure row
  | none => exact .throw _

lemma walks_prepare (q : Query) : Moves Walks (prepare q) := by
  refine walks_compile q fun c => .subject_bind fun w => ?_
  split
  · exact Moves.bind (walks_submit (.task (.warm c.sql))) (fun _ => .pure c) w
  · exact .refl

lemma walks_createIndex (i : Index) : Moves Walks (createIndex i) :=
  .subject_bind fun w => Job.move_bind (Moves.ofExcept _ _ w) fun _ =>
    .bind (walks_execute _ .nothing 0) fun _ => .pure ()

lemma walks_createIndexOn (table : String) (columns : List String) (unique : Bool) :
    Moves Walks (createIndexOn table columns unique) :=
  .bind (walks_createIndex _) fun _ => .pure _

lemma walks_dropIndex (i : Index) : Moves Walks (dropIndex i) :=
  .bind (walks_execute _ .nothing 0) fun _ => .pure ()

lemma walks_listIndexes (table : Option String) : Moves Walks (listIndexes table) :=
  .bind walks_catalog fun _ => .pure _

lemma walks_close : Moves Walks (Job.sure close) := by
  intro w
  rw [Job.run_sure, close_eq]
  split
  · exact .refl
  · exact .single .aborted

lemma walks_job (t : Task) : Moves Walks t.job := by
  cases t with
  | execute q given slot => exact .bind (walks_execute q.1 given slot) fun _ => .pure ()
  | fetchAll q into given slot =>
    exact .bind (walks_fetchAll q.1 into given slot) fun _ => .pure ()
  | fetchOne q into given slot =>
    exact .bind (walks_fetchOne q.1 into given slot) fun _ => .pure ()
  | returning q into given slot =>
    exact .bind (walks_returning q.1 into given slot) fun _ => .pure ()
  | prepare q => exact .bind (walks_prepare q) fun _ => .pure ()
  | createIndex i => exact walks_createIndex i
  | createIndexOn table columns unique =>
    exact .bind (walks_createIndexOn table columns unique) fun _ => .pure ()
  | dropIndex i => exact walks_dropIndex i
  | dropIndexNamed name => exact walks_dropIndex _
  | listIndexes table => exact .bind (walks_listIndexes table) fun _ => .pure ()
  | migrate => exact .bind walks_migrate fun _ => .pure ()
  | catalog => exact .bind walks_catalog fun _ => .pure ()
  | batch script => exact walks_runBatch script
  | close => exact walks_close

lemma walks_serve (tasks : List Task) (w : Exchange × Database) : Walks w (serve tasks w) := by
  induction tasks generalizing w with
  | nil => exact .refl
  | cons t tasks ih => exact (walks_job t w).trans (ih _)

lemma walks_openMigrated {schema : Schema} {settings : DatabaseSettings} {x x₀ : Exchange}
    {d : Database} (h : (openMigrated schema settings).run (x, ()) = (.ok d, x₀, ())) :
    ∃ writer x₁ readsApart,
      (Connection.connect .writer settings).run (x, ()) = (.ok writer, x₁, ()) ∧
        Walks (x₁, { schema, settings, writer, readsApart }) (x₀, d) := by
  obtain ⟨writer, x₁, hconnect, readsApart, hstart⟩ := openWith_eq_ok h
  have hmigrate : Moves Walks (do let _ ← migrate) := .bind walks_migrate fun _ => .pure ()
  have hmigrated := hmigrate (x₁, { schema, settings, writer, readsApart })
  rw [hstart] at hmigrated
  exact ⟨writer, x₁, readsApart, hconnect, hmigrated⟩

end Database

end Tablewright
