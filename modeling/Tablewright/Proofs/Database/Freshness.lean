import Tablewright.Database.Indexes
import Tablewright.Proofs.Database.Renewal
import Tablewright.Proofs.Outcome

namespace Tablewright

namespace Query

variable {q : Query} {c : Compiled}

def AltersSchema : Query → Prop
  | statement s => ∃ d, s = .ddl d
  | compiled c => ∃ d, (Statement.ddl d).compile = .ok c
  | other _ => False

def Authored : Query → Prop
  | compiled c => ∃ s : Statement, s.compile = .ok c
  | _ => True

lemma isDdl_compile {s : Statement} (h : s.compile = .ok c) : c.isDdl = s.isDdl := by
  obtain ⟨sql, -, rfl⟩ := map_eq_ok_iff.mp h
  rfl

lemma isDdl_iff (hq : q.Authored) (h : q.compile = .ok c) : c.isDdl = true ↔ q.AltersSchema := by
  cases q with
  | statement s =>
    rw [isDdl_compile h, AltersSchema]
    cases s <;> simp [Statement.isDdl]
  | compiled c' =>
    obtain rfl := Except.ok.inj h
    obtain ⟨s, hs⟩ := hq
    refine ⟨fun hddl => ?_, fun ⟨d, hd⟩ => isDdl_compile hd⟩
    rw [isDdl_compile hs] at hddl
    cases s with
    | ddl d => exact ⟨d, hs⟩
    | select | insert | update | delete => cases hddl
  | other v => cases h

lemma authored_compile (hq : q.Authored) (h : q.compile = .ok c) : (compiled c).Authored := by
  cases q with
  | statement s => exact ⟨s, h⟩
  | compiled c' => exact Except.ok.inj h ▸ hq
  | other v => cases h

lemma authored_askRows (hq : q.Authored) : q.askRows.Authored := by
  cases q with
  | statement s => trivial
  | compiled c => exact hq
  | other v => trivial

lemma altersSchema_askRows : q.askRows.AltersSchema ↔ q.AltersSchema := by
  cases q with
  | statement s => cases s <;> simp [askRows, AltersSchema, Statement.askRows]
  | compiled c => rfl
  | other v => rfl

end Query

namespace Database

variable {q : Query}

lemma renewing_compile {α : Type} {ddl : Prop} {next : Compiled → Job Database α}
    (h : ∀ c, q.compile = .ok c → Renewing ddl (next c)) : Renewing ddl (compile q >>= next) := by
  intro w
  rw [compile, Job.run_bind, Job.run_ofExcept]
  cases hc : q.compile with
  | error e => exact .refl w
  | ok c => exact h c hc w

lemma renewing_execute (hq : q.Authored) (given : Supplied) (slot : Nat) :
    Renewing q.AltersSchema (execute q given slot) := by
  refine renewing_compile fun c hc => ?_
  rw [← Query.isDdl_iff hq hc]
  exact .bind (renewing_run c given slot) fun _ => .pure _

lemma renewing_fetchAll (hq : q.Authored) (into : Option RowTarget) (given : Supplied)
    (slot : Nat) : Renewing q.AltersSchema (fetchAll q into given slot) := by
  refine renewing_compile fun c hc => ?_
  rw [← Query.isDdl_iff hq hc]
  refine .bind (renewing_run c given slot) fun result => ?_
  rintro ⟨x, d⟩
  simp only [Job.run_bind, Job.run_get, Job.run_set, Job.run_ofExcept]
  exact .of_idle (.refl x) fun changes history hw => ⟨hw.writer, hw.readers⟩

lemma renewing_fetchOne (hq : q.Authored) (into : Option RowTarget) (given : Supplied)
    (slot : Nat) : Renewing q.AltersSchema (fetchOne q into given slot) :=
  .bind (renewing_fetchAll hq into given slot) fun _ => .pure _

lemma renewing_returning (hq : q.Authored) (into : Option RowTarget) (given : Supplied)
    (slot : Nat) : Renewing q.AltersSchema (returning q into given slot) := by
  have hrows : q.askRows.Authored := Query.authored_askRows hq
  refine renewing_compile fun c hc => ?_
  have hcompiled : (Query.compiled c).Authored := Query.authored_compile hrows hc
  have hddl : (Query.compiled c).AltersSchema ↔ q.AltersSchema := by
    rw [← Query.isDdl_iff hcompiled rfl, Query.isDdl_iff hrows hc, Query.altersSchema_askRows]
  refine .bind (propext hddl ▸ renewing_fetchOne hcompiled into given slot) fun row => ?_
  cases row with
  | some row => exact .pure row
  | none => exact .throw _

lemma renewing_prepare {ddl : Prop} (q : Query) : Renewing ddl (prepare q) := by
  refine renewing_compile fun c hc => .bind .subject fun d => ?_
  split
  · exact .bind (renewing_submit (Connection.keeps_prepared c.sql)) fun _ => .pure c
  · exact .pure c

lemma renewing_executeDdl (d : Ddl) :
    Renewing True (execute (.statement (.ddl d)) .nothing) := by
  have hddl : (Query.statement (.ddl d)).AltersSchema ↔ True := iff_true_intro ⟨d, rfl⟩
  exact propext hddl ▸ renewing_execute (q := .statement (.ddl d)) trivial .nothing 0

lemma renewing_createIndex (i : Index) : Renewing True (createIndex i) :=
  .bind .subject fun _ => .bind (.ofExcept _ _) fun _ =>
    .bind (renewing_executeDdl (.createIndex i)) fun _ => .pure ()

lemma renewing_createIndexOn (table : String) (columns : List String) (unique : Bool) :
    Renewing True (createIndexOn table columns unique) :=
  .bind (renewing_createIndex _) fun _ => .pure _

lemma renewing_dropIndex (i : Index) : Renewing True (dropIndex i) :=
  .bind (renewing_executeDdl (.dropIndex i)) fun _ => .pure ()

lemma renewing_listIndexes {ddl : Prop} (table : Option String) :
    Renewing ddl (listIndexes table) :=
  .bind renewing_catalog fun _ => .pure _

/-- What a database is asked to do. Where a reader serves it, `slot` tells which one. A task is
done as a whole and the next one begins after it: a reader that looks into its cache between the
writer's COMMIT and the clearing of the caches is not among the runs described here. -/
inductive Task where
  | execute (q : { q : Query // q.Authored }) (given : Supplied) (slot : Nat)
  | fetchAll (q : { q : Query // q.Authored }) (into : Option RowTarget) (given : Supplied)
      (slot : Nat)
  | fetchOne (q : { q : Query // q.Authored }) (into : Option RowTarget) (given : Supplied)
      (slot : Nat)
  | returning (q : { q : Query // q.Authored }) (into : Option RowTarget) (given : Supplied)
      (slot : Nat)
  | prepare (q : Query)
  | createIndex (i : Index)
  | createIndexOn (table : String) (columns : List String) (unique : Bool)
  | dropIndex (i : Index)
  | dropIndexNamed (name : String)
  | listIndexes (table : Option String)
  | migrate
  | catalog
  | batch (script : String)
  | close

namespace Task

def job : Task → Job Database Unit
  | execute q given slot => do let _ ← Database.execute q.1 given slot
  | fetchAll q into given slot => do let _ ← Database.fetchAll q.1 into given slot
  | fetchOne q into given slot => do let _ ← Database.fetchOne q.1 into given slot
  | returning q into given slot => do let _ ← Database.returning q.1 into given slot
  | prepare q => do let _ ← Database.prepare q
  | createIndex i => Database.createIndex i
  | createIndexOn table columns unique => do
    let _ ← Database.createIndexOn table columns unique
  | dropIndex i => Database.dropIndex i
  | dropIndexNamed name => Database.dropIndexNamed name
  | listIndexes table => do let _ ← Database.listIndexes table
  | migrate => do let _ ← Database.migrate
  | catalog => do let _ ← Database.catalog
  | batch script => Database.runBatch script
  | close => Job.sure Database.close

def AltersSchema : Task → Prop
  | execute q _ _ | fetchAll q _ _ _ | fetchOne q _ _ _ | returning q _ _ _ => q.1.AltersSchema
  | createIndex _ | createIndexOn _ _ _ | dropIndex _ | dropIndexNamed _ | migrate => True
  | prepare _ | listIndexes _ | catalog | batch _ | close => False

end Task

lemma renewing_job (t : Task) : Renewing t.AltersSchema t.job := by
  cases t with
  | execute q given slot => exact .bind (renewing_execute q.2 given slot) fun _ => .pure ()
  | fetchAll q into given slot =>
    exact .bind (renewing_fetchAll q.2 into given slot) fun _ => .pure ()
  | fetchOne q into given slot =>
    exact .bind (renewing_fetchOne q.2 into given slot) fun _ => .pure ()
  | returning q into given slot =>
    exact .bind (renewing_returning q.2 into given slot) fun _ => .pure ()
  | prepare q => exact .bind (renewing_prepare q) fun _ => .pure ()
  | createIndex i => exact renewing_createIndex i
  | createIndexOn table columns unique =>
    exact .bind (renewing_createIndexOn table columns unique) fun _ => .pure ()
  | dropIndex i => exact renewing_dropIndex i
  | dropIndexNamed name => exact renewing_dropIndex _
  | listIndexes table => exact .bind (renewing_listIndexes table) fun _ => .pure ()
  | migrate => exact .bind renewing_migrate fun _ => .pure ()
  | catalog => exact .bind renewing_catalog fun _ => .pure ()
  | batch script => exact renewing_runBatch script
  | close => exact renewing_close

/-- Tasks done in the order in which they are given, each from where the one before it ended. -/
def serve (tasks : List Task) (w : Exchange × Database) : Exchange × Database :=
  tasks.foldl (fun w t => (t.job.run w).2) w

/-- The moments at which tasks, done one after another, may have changed the schema. -/
def AlteredBy : List Task → Exchange × Database → Nat → Prop
  | [], _, _ => False
  | t :: tasks, w, m =>
    w.1.AlteredAt t.AltersSchema (t.job.run w).2.1 m ∨ AlteredBy tasks (t.job.run w).2 m

lemma serve_renews (tasks : List Task) (w : Exchange × Database) :
    ∃ asked, (serve tasks w).1.lookups = w.1.lookups ++ asked ∧
      ∀ changes history, Fresh changes history w.1.events.length → w.2.Warm changes history →
        Fresh (fun m => changes m ∨ AlteredBy tasks w m) (history ++ asked)
          (serve tasks w).1.events.length := by
  induction tasks generalizing w with
  | nil =>
    refine ⟨[], (List.append_nil _).symm, fun changes history hfresh _ => ?_⟩
    rw [List.append_nil]
    exact hfresh.later (Nat.le_refl _) fun m hm => Or.inl (hm.elim id False.elim)
  | cons t tasks ih =>
    obtain ⟨-, asked, -, hlookups, hstep⟩ := renewing_job t w
    obtain ⟨asked', hlookups', hrest⟩ := ih (t.job.run w).2
    refine ⟨asked ++ asked', ?_, fun changes history hfresh hwarm => ?_⟩
    · rw [serve, List.foldl_cons, ← serve, hlookups', hlookups, List.append_assoc]
    · obtain ⟨hfresh, hwarm⟩ := hstep changes history hfresh hwarm
      have hserved := hrest _ _ hfresh hwarm
      simp only [or_assoc, List.append_assoc] at hserved
      exact hserved

lemma openWith_eq_ok {schema : Schema} {settings : DatabaseSettings} {start : Job Database Unit}
    {x x₀ : Exchange} {d : Database}
    (h : (openWith schema settings start).run (x, ()) = (.ok d, x₀, ())) :
    ∃ writer x₁, (Connection.connect .writer settings).run (x, ()) = (.ok writer, x₁, ()) ∧
      ∃ readsApart, start.run (x₁, { schema, settings, writer, readsApart }) = (.ok (), x₀, d) := by
  simp only [openWith, ExceptT.run, ExceptT.mk] at h
  split at h
  · cases h
  · next writer x₁ u hconnect =>
    refine ⟨writer, x₁, hconnect, !settings.isMemory && 0 < settings.readPoolSize, ?_⟩
    generalize (⟨schema, settings, writer, _, _, _, _, _⟩ : Database) = d₀ at h ⊢
    have hundoing := Job.run_undoing start abort (x₁, d₀)
    simp only [ExceptT.run] at hundoing ⊢
    rw [hundoing] at h
    rcases hstart : start (x₁, d₀) with ⟨e | ⟨⟩, x₂, d₁⟩
    · rw [hstart] at h
      cases h
    · rw [hstart] at h
      obtain ⟨hd, hx⟩ := Prod.mk.inj h
      rw [Except.ok.inj hd, (Prod.mk.inj hx).1]

lemma openMigrated_renews {schema : Schema} {settings : DatabaseSettings} {x x₀ : Exchange}
    {d : Database} (h : (openMigrated schema settings).run (x, ()) = (.ok d, x₀, ())) :
    ∃ d₀, (∀ changes history, d₀.Warm changes history) ∧ Renews True (x, d₀) (x₀, d) := by
  obtain ⟨writer, x₁, hconnect, readsApart, hstart⟩ := openWith_eq_ok h
  have hidle := Idle.connect .writer settings x
  rw [hconnect] at hidle
  have hempty : writer.cache.handles = [] := (Connection.connect_eq_ok hconnect).1
  have hmigrate : Renewing True (do let _ ← migrate) := .bind renewing_migrate fun _ => .pure ()
  let d₀ : Database := { schema, settings, writer, readsApart }
  have hconnected : Renews True (x, d₀) (x₁, d₀) := .of_idle hidle fun _ _ => id
  have hmigrated := hmigrate (x₁, d₀)
  rw [hstart] at hmigrated
  refine ⟨d₀, fun changes history => ⟨?_, ?_⟩, hconnected.trans hmigrated⟩
  · intro e he
    rw [hempty] at he
    cases he
  · exact fun r hr => absurd hr List.not_mem_nil

/-- Whatever a database is asked to do, and whatever the engine answers: a request that a cache
answers gets the handle of the last request before it that prepared one, and in between the schema
was not changed, neither by the migration at the opening nor by a task. -/
theorem serve_fresh {schema : Schema} {settings : DatabaseSettings} {x x₀ : Exchange}
    {d : Database} (hopen : (openMigrated schema settings).run (x, ()) = (.ok d, x₀, ()))
    (tasks : List Task) {before after : List Lookup} {u : Lookup}
    (hlookups : (serve tasks (x₀, d)).1.lookups = x.lookups ++ (before ++ u :: after))
    (hfound : u.found = true) :
    ∃ earlier p later, before = earlier ++ p :: later ∧ p.Prepares u.connection u.sql ∧
      (∀ q ∈ later, ¬ q.Prepares u.connection u.sql) ∧
      ∀ m, p.moment ≤ m → m < u.moment →
        ¬ (x.AlteredAt True x₀ m ∨ AlteredBy tasks (x₀, d) m) := by
  obtain ⟨d₀, hwarm, -, asked, -, hasked, hopened⟩ := openMigrated_renews hopen
  obtain ⟨asked', hasked', hserved⟩ := serve_renews tasks (x₀, d)
  obtain ⟨hfresh, hwarm⟩ := hopened (fun _ => False) [] (.nil nofun) (hwarm _ _)
  have hfresh := hserved _ _ hfresh hwarm
  have heq : asked ++ asked' = before ++ u :: after := by
    rw [hasked', hasked, List.append_assoc] at hlookups
    exact List.append_cancel_left hlookups
  obtain ⟨earlier, p, later, hbefore, hprepares, hlater, hp⟩ := hfresh.last_prepares heq hfound
  refine ⟨earlier, p, later, hbefore, hprepares, hlater, fun m hpm hmu haltered => ?_⟩
  have := hp m (haltered.imp_left Or.inr) hpm
  omega

namespace Dropped

def note : Table := ⟨"note", [{ name := "id", kind := .integer, primaryKey := true }]⟩

def delete : Task := .execute ⟨.statement (.delete { table := note }), trivial⟩ .nothing 0

def tasks : List Task := [delete, .dropIndexNamed "recent", delete, delete]

def asked : List Lookup :=
  [⟨1, "DELETE FROM \"note\"", false, 5⟩, ⟨1, "DROP INDEX IF EXISTS \"recent\"", false, 8⟩,
   ⟨1, "DELETE FROM \"note\"", false, 11⟩]

end Dropped

theorem serve_fresh_dropped : ∃ d x u, (openMigrated {} {}).run ({}, ()) = (.ok d, x, ()) ∧
    (serve Dropped.tasks (x, d)).1.lookups = Dropped.asked ++ [u] ∧ u.found = true ∧
    ∃ earlier p later, Dropped.asked = earlier ++ p :: later ∧ p.Prepares u.connection u.sql ∧
      (∀ q ∈ later, ¬ q.Prepares u.connection u.sql) ∧
      ∀ m, p.moment ≤ m → m < u.moment →
        ¬ (({} : Exchange).AlteredAt True x m ∨ AlteredBy Dropped.tasks (x, d) m) := by
  let u : Lookup := ⟨1, "DELETE FROM \"note\"", true, 14⟩
  have hserved : ∃ d x, (openMigrated {} {}).run ({}, ()) = (.ok d, x, ()) ∧
      (serve Dropped.tasks (x, d)).1.lookups = [] ++ (Dropped.asked ++ [u]) :=
    ⟨_, _, rfl, by decide +kernel⟩
  obtain ⟨d, x, hopen, hlookups⟩ := hserved
  exact ⟨d, x, u, hopen, hlookups, rfl, serve_fresh hopen Dropped.tasks hlookups rfl⟩

end Database

end Tablewright
