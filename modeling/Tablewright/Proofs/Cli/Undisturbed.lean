import Tablewright.Engine.Opening
import Tablewright.Proofs.Cli.Visit
import Tablewright.Proofs.Engine.Freshness

/-! What looking at a database sends to the engine, to show what is there or to plan a migration.
None of it changes a table; but unless the database is only read, a file is set to the journal mode
of the settings, and its write lock is taken. -/

namespace Tablewright

open Connection (beginText)

/-- The texts that an event has sent. A new connection is set up with its pragmas; one that is
refused counts as sent nothing, and a look at the catalog only reads. -/
def Event.sent (s : DatabaseSettings) : Event → List String
  | connected _ ok => if ok then s.pragmas else []
  | executed _ sql _ _ => [sql]
  | committed _ _ => ["COMMIT"]
  | rolledBack _ => ["ROLLBACK"]
  | ranScript _ text _ => [text]
  | inspected _ _ | slept _ | closed _ | disposed => []

def Exchange.sent (s : DatabaseSettings) (x x' : Exchange) : List String :=
  (x.since x').flatMap (·.sent s)

/-- How a statement begins that takes the write lock of a file, or changes what is kept in it. -/
def disturbing : List String :=
  [beginText, "CREATE ", "ALTER ", "DROP ", "INSERT ", "UPDATE ", "DELETE ",
    "PRAGMA journal_mode="]

def Disturbs (text : String) : Prop := ∃ start ∈ disturbing, start.toList <+: text.toList

instance : DecidablePred Disturbs := fun text =>
  inferInstanceAs (Decidable (∃ start ∈ disturbing, start.toList <+: text.toList))

lemma not_disturbs (head : String) (h : ∀ start ∈ disturbing,
    ¬ start.toList <+: head.toList ∧ ¬ head.toList <+: start.toList) (rest : String) :
    ¬ Disturbs (head ++ rest) := by
  rintro ⟨start, hstart, hbegins⟩
  rw [String.toList_append] at hbegins
  have hsome := List.prefix_or_prefix_of_prefix hbegins (List.prefix_append _ _)
  exact hsome.elim (h start hstart).1 (h start hstart).2

namespace DatabaseSettings

variable {s : DatabaseSettings}

lemma not_disturbs_of_readOnly (h : s.readOnly = true) : ∀ t ∈ s.pragmas, ¬ Disturbs t := by
  simp only [pragmas, h, if_true, List.nil_append, List.forall_mem_cons]
  refine ⟨?_, ?_, ?_, ?_, nofun⟩
  · exact not_disturbs "PRAGMA busy_timeout=" (by decide +kernel) _
  · exact not_disturbs "PRAGMA synchronous=" (by decide +kernel) _
  · exact not_disturbs "PRAGMA foreign_keys=" (by decide +kernel) _
  · exact not_disturbs "PRAGMA cache_size=-" (by decide +kernel) _

lemma disturbs_of_not_readOnly (h : s.readOnly = false) : ∃ t ∈ s.pragmas, Disturbs t := by
  refine ⟨"PRAGMA journal_mode=" ++ Choice.word s.journalMode, ?_, "PRAGMA journal_mode=", ?_, ?_⟩
  · simp [pragmas, h]
  · decide
  · rw [String.toList_append]
    exact List.prefix_append _ _

end DatabaseSettings

def Event.Looks (readOnly : Bool) : Event → Prop
  | executed _ sql _ _ => readOnly = false ∧ sql = beginText
  | committed _ _ | slept _ => readOnly = false
  | inspected _ _ | rolledBack _ => True
  | connected _ _ | ranScript _ _ _ | closed _ | disposed => False

lemma Event.Looks.sent {readOnly : Bool} {e : Event} (h : e.Looks readOnly)
    {s : DatabaseSettings} {t : String} (ht : t ∈ e.sent s) :
    t = "ROLLBACK" ∨ readOnly = false ∧ (t = beginText ∨ t = "COMMIT") := by
  cases e with
  | executed n sql values ok =>
    obtain ⟨hreadOnly, rfl⟩ := h
    exact .inr ⟨hreadOnly, .inl (List.mem_singleton.mp ht)⟩
  | committed n ok => exact .inr ⟨h, .inr (List.mem_singleton.mp ht)⟩
  | rolledBack n => exact .inl (List.mem_singleton.mp ht)
  | inspected n ok | slept delay => cases ht
  | connected | ranScript | closed | disposed => exact h.elim

def Exchange.Looks (readOnly : Bool) (x x' : Exchange) : Prop :=
  ∃ work, x'.events = x.events ++ work ∧ (∀ e ∈ work, e.Looks readOnly) ∧
    ∀ c st, Store.Runs (.quiet c) work st → st = .quiet c

lemma Exchange.Looks.trans {readOnly : Bool} {x x' x'' : Exchange} (h : x.Looks readOnly x')
    (h' : x'.Looks readOnly x'') : x.Looks readOnly x'' := by
  obtain ⟨work, hevents, hwork, hquiet⟩ := h
  obtain ⟨work', hevents', hwork', hquiet'⟩ := h'
  refine ⟨work ++ work', by rw [hevents', hevents, List.append_assoc], fun e he => ?_, ?_⟩
  · exact (List.mem_append.mp he).elim (hwork e) (hwork' e)
  · intro c st hst
    obtain ⟨m, hm, hst⟩ := steps_append.mp hst
    obtain rfl := hquiet c m hm
    exact hquiet' c st hst

namespace Connection

variable {x : Exchange} {k : Connection}

lemma reconcile_nothing (live : LiveSchema) : reconcile {} live = .ok ⟨[]⟩ := rfl

lemma looks_migrate_nothing (readOnly : Bool) (hk : k.Sound k.number) :
    x.Looks readOnly ((migrate {} readOnly).run (x, k)).2.1 := by
  have hinspected := steady_inspected (P := Event.Looks readOnly) fun _ _ => trivial
  have hsteady : Job.Moves (Steady (Event.Looks readOnly)) (migrate {} readOnly) := by
    cases readOnly with
    | true =>
      exact moves_check hinspected (fun x c => Steadily.rollback (fun _ => trivial) (x, c)) {}
    | false =>
      have hlocks : Locks (Steady (Event.Looks false)) :=
        steady_locks (fun _ _ => ⟨rfl, rfl⟩) (fun _ => trivial) fun _ => rfl
      refine (steady_transacts hlocks fun _ _ => rfl).migrate hinspected fun live plan hplan => ?_
      obtain rfl := Except.ok.inj ((reconcile_nothing live).symm.trans hplan)
      exact .pure ()
  obtain ⟨work, hevents, hlooks⟩ := (hsteady (x, k)).events
  obtain ⟨work', hevents', -, hstore⟩ := migrate_on_store {} readOnly x hk
  obtain rfl : work' = work := List.append_cancel_left (hevents'.symm.trans hevents)
  refine ⟨work', hevents, hlooks, fun c st hst => ?_⟩
  rcases hrun : (migrate {} readOnly).run (x, k) with ⟨e | plan, w⟩
  · exact (hstore c st hst).1 e (congrArg Prod.fst hrun)
  · obtain ⟨tables, -, hplan, -⟩ := found_of_migrate hrun
    obtain rfl := Except.ok.inj ((reconcile_nothing _).symm.trans hplan)
    rw [(hstore c st hst).2 ⟨[]⟩ (congrArg Prod.fst hrun), List.map_nil, List.append_nil]

lemma looks_readCatalogOnly (readOnly : Bool) (hk : k.Sound k.number) :
    x.Looks readOnly (readCatalogOnly.run (x, k)).2.1 := by
  have hsteady : Job.Moves (Steady (Event.Looks readOnly)) readCatalogOnly :=
    moves_readCatalogOnly (steady_inspected fun _ _ => trivial)
      fun x c => Steadily.rollback (fun _ => trivial) (x, c)
  obtain ⟨work, hevents, hlooks⟩ := (hsteady (x, k)).events
  obtain ⟨-, work', hevents', hstore⟩ := Leaves.on_store
    (fun c => leaves_readCatalogOnly (n := k.number) (c := c))
    (fun w => (works_readCatalogOnly w).located) (w := (x, k)) hk
  obtain rfl : work' = work := List.append_cancel_left (hevents'.symm.trans hevents)
  refine ⟨work', hevents, hlooks, fun c st hst => ?_⟩
  obtain ⟨s, rfl, rfl⟩ := hstore c st hst
  exact Store.withSession_quiet c c k.number

end Connection

namespace Cli

open Database (migrateFirst)

/-- How a database is looked at: no connection was made, or the one that was made looked and was
closed, with nothing committed and no transaction left open. -/
inductive Looked (settings : DatabaseSettings) (x x' : Exchange) : Prop
  | refused {n} : x.since x' = [.connected n false, .disposed] → Looked settings x x'
  | made {n work} : x.since x' = .connected n true :: (work ++ [.closed n, .disposed]) →
      (∀ e ∈ work, e.Looks settings.readOnly) →
      (∀ c st, Store.Runs (.quiet c) (x.since x') st → st = .quiet c) → Looked settings x x'

variable {config : Option String} {path : String} {settings : DatabaseSettings}
  {x x₁ x₂ : Exchange} {k : Connection}

lemma Looked.of_connected
    (hconnect : (Connection.connect .writer settings).run (x, ()) = (.ok k, x₁, ()))
    (h : x₁.Looks settings.readOnly x₂) :
    Looked settings x (x₂.recordAll [.closed k.number, .disposed]) := by
  obtain ⟨work, hevents, hlooks, hquiet⟩ := h
  have hsince : x.since (x₂.recordAll [.closed k.number, .disposed]) =
      .connected k.number true :: (work ++ [.closed k.number, .disposed]) := by
    refine Exchange.since_eq ?_
    rw [Exchange.recordAll, hevents, (Connection.connect_eq_ok hconnect).2.2]
    simp
  refine .made hsince hlooks fun c st hst => ?_
  rw [hsince] at hst
  obtain ⟨m, hm, hst⟩ := hst
  obtain rfl := hm.of_harmless trivial
  obtain ⟨m, hm, hst⟩ := steps_append.mp hst
  obtain rfl := hquiet c m hm
  exact Store.Runs.of_harmless hst (by simp [Event.Harmless])

lemma looked_readLive (site : Site) (hstart : site.start = migrateFirst)
    (hsettings : liveSettings site.host config path = .ok settings) (x : Exchange) :
    Looked settings x ((readLive site config path).run x).2 := by
  rcases hconnect : (Connection.connect .writer settings).run (x, ()) with ⟨e | k, x₁, ⟨⟩⟩
  · rw [run_readLive_of_ok hsettings, run_withDatabase_of_refused hstart hconnect]
    refine .refused (n := x.attempts + 1) (Exchange.since_eq ?_)
    rw [Exchange.record, Connection.connect_eq_error hconnect, List.append_assoc]
    rfl
  · have hopened := Connection.looks_migrate_nothing (x := x₁) settings.readOnly
      (Connection.sound_of_connect hconnect)
    rcases hmigrate : (Connection.migrate {} settings.readOnly).run (x₁, k)
      with ⟨e | plan, x₂, k'⟩
    · obtain ⟨hnumber, -, -⟩ := Database.course_of_migrate hconnect hmigrate
      rw [hmigrate] at hopened
      rw [run_readLive_of_ok hsettings, run_withDatabase_of_failed hstart hconnect hmigrate,
        hnumber]
      exact .of_connected hconnect hopened
    · obtain ⟨hnumber, -, -⟩ := Database.course_of_migrate hconnect hmigrate
      rw [run_readLive_of_migrated hstart hsettings hconnect hmigrate, hnumber]
      rw [hmigrate] at hopened
      have hcleared : (Database.clearCache k').Sound k'.number :=
        ⟨rfl, List.forall_mem_nil _⟩
      exact .of_connected hconnect
        (hopened.trans (Connection.looks_readCatalogOnly settings.readOnly hcleared))

namespace Untouched

def host : Host where
  directory := "/work"
  home := "/home/ada"
  files := [("/work/app.db", "")]
  env := []

def readOnlyHost : Host := { host with env := [("RIZZ__DATABASE__READ_ONLY", "true")] }

end Untouched

end Cli

end Tablewright
