import Tablewright.Proofs.Cli.Visit

/-! The plan that is shown and the plan that is made. Both are worked out from what the catalog
holds; but a database that is not found at its path as given is planned for as an empty one, while
the same path is made absolute before the database is opened. -/

namespace Tablewright

open Connection (Transacts)

namespace Exchange

def Shows (i : Inspection) (x : Exchange) : Prop :=
  (x.inspections = [] → i = .tables []) ∧ ∀ j ∈ x.inspections, j = i

variable {i : Inspection} {x x' : Exchange}

lemma Shows.found (h : x.Shows i) : x.inspections.headD (.tables []) = i := by
  cases hlooks : x.inspections with
  | nil => exact (h.1 hlooks).symm
  | cons j rest => exact h.2 j (hlooks ▸ List.mem_cons_self)

lemma Shows.congr (h : x.Shows i) (hsame : x'.inspections = x.inspections) : x'.Shows i := by
  rwa [Shows, hsame]

lemma Shows.inspect (h : x.Shows i) (n : Nat) : (x.inspect n).2.Shows i := by
  rw [Shows, inspect_inspections]
  split
  · exact h
  · next hlong =>
    refine ⟨fun hnil => ?_, fun j hj => h.2 j (List.mem_of_mem_tail hj)⟩
    have hlength := congrArg List.length hnil
    rw [List.length_tail, List.length_nil] at hlength
    omega

end Exchange

namespace Connection

variable {i : Inspection}

def Shows (i : Inspection) (w w' : Exchange × Connection) : Prop := w.1.Shows i → w'.1.Shows i

instance : IsPreorder (Exchange × Connection) (Shows i) where
  refl _ := id
  trans _ _ _ h h' := h' ∘ h

lemma shows_transacts : Transacts (Shows i) where
  begun x _ h := h.congr (x.ask_inspections _ _)
  rolledBack _ _ h := h.congr rfl
  slept _ _ _ h := h.congr rfl
  committed x _ h := h.congr (x.ask_inspections _ _)

lemma shows_migrate (declared : Schema) (readOnly : Bool) :
    Job.Moves (Shows i) (migrate declared readOnly) := by
  have hinspected (x c) : Shows i (x, c) ((x.inspect c.number).2, c) := fun h => h.inspect c.number
  cases readOnly with
  | true => exact moves_check hinspected shows_transacts.rolledBack declared
  | false =>
    refine shows_transacts.migrate hinspected fun live plan _ => moves_apply ?_
    exact fun d _ x c h => h.congr (x.ask_inspections _ _)

end Connection

namespace Cli

open Database (migrateFirst)

section

variable {site : Site} {config : Option String} {path : String} {schema : Schema} {i : Inspection}
  {x x' y y' : Exchange} {live : LiveSchema} {p q : Plan}

lemma live_of_readLive (hstart : site.start = migrateFirst) (hx : x.Shows i)
    (h : (readLive site config path).run x = (.ok live, x')) :
    ∃ tables, i = .tables tables ∧ live = .ofInspected tables := by
  cases hsettings : liveSettings site.host config path with
  | error e =>
    rw [run_readLive_of_error hsettings] at h
    cases congrArg Prod.fst h
  | ok settings =>
    rw [run_readLive_of_ok hsettings] at h
    obtain ⟨k, x₁, plan, x₂, k', hconnect, hmigrate, hcatalog, -⟩ := withDatabase_eq_ok hstart h
    have hconnected := Connection.connect_inspections .writer settings x
    have hmigrated := Connection.shows_migrate (i := i) {} settings.readOnly (x₁, k)
    rw [hconnect] at hconnected
    rw [hmigrate] at hmigrated
    rw [Database.run_catalog rfl, Connection.run_readCatalogOnly] at hcatalog
    obtain ⟨tables, hfound, rfl⟩ := Connection.readCatalog_eq_ok (Prod.ext hcatalog rfl)
    exact ⟨tables, (hmigrated (hx.congr hconnected)).found.symm.trans hfound, rfl⟩

lemma computePlan_eq_ok (hstart : site.start = migrateFirst) (hx : x.Shows i)
    (h : (computePlan site config path schema).run x = (.ok p, x')) :
    if site.host.has path then
      ∃ tables, i = .tables tables ∧ reconcile schema (.ofInspected tables) = .ok p
    else reconcile schema (.ofDescriptions [] []) = .ok p := by
  rw [computePlan] at h
  split
  · next hhas =>
    rw [if_pos hhas, run_bind] at h
    rcases hread : (readLive site config path).run x with ⟨e | live, x₁⟩
    · rw [hread] at h
      cases congrArg Prod.fst h
    · obtain ⟨tables, hfound, rfl⟩ := live_of_readLive hstart hx hread
      rw [hread] at h
      have hplan := congrArg Prod.fst ((run_ofExcept _ _ x₁).symm.trans h)
      exact ⟨tables, hfound, mapError_eq_ok_iff.mp hplan⟩
  · next hhas =>
    rw [if_neg hhas] at h
    exact mapError_eq_ok_iff.mp (congrArg Prod.fst ((run_ofExcept _ _ x).symm.trans h))

lemma applyPlan_eq_ok (hstart : site.start = migrateFirst) (hy : y.Shows i)
    (h : (applyPlan site config path schema).run y = (.ok q, y')) :
    (∃ tables, i = .tables tables ∧ reconcile schema (.ofInspected tables) = .ok q) ∧
      ∀ c st, Store.Runs (.quiet c) (y.since y') st →
        st = .quiet (c ++ q.operations.map fun d => ⟨d.text, []⟩) := by
  rw [applyPlan, run_bind, run_settingsFor] at h
  cases hsettings : settingsAt site.host config path [] with
  | error e =>
    rw [hsettings] at h
    cases congrArg Prod.fst h
  | ok settings =>
    rw [hsettings] at h
    obtain ⟨k, y₁, plan, y₂, k', hconnect, hmigrate, hwork, hy'⟩ := withDatabase_eq_ok hstart h
    obtain rfl : plan = q := Except.ok.inj hwork
    have hconnected := Connection.connect_inspections .writer settings y
    rw [hconnect] at hconnected
    obtain ⟨tables, hfound, hplan, -⟩ := Connection.found_of_migrate hmigrate
    obtain ⟨-, hk', hcourse⟩ := Database.course_of_migrate hconnect hmigrate
    have halone : (Database.migrated schema settings k' plan).Alone := ⟨rfl, rfl, hk'⟩
    have hclosed : y' = y₂.recordAll [.closed k'.number, .disposed] := hy'.trans halone.close
    refine ⟨⟨tables, (hy.congr hconnected).found.symm.trans hfound, hplan⟩, fun c st hst => ?_⟩
    rw [hclosed] at hst
    exact ((hcourse _ (by simp [Event.Harmless])).2 c st hst).2 plan rfl

/-- A plan that is shown is the plan that is made of the same database, if the database is found at
its path as given; for one that is not there the plan is that of an empty one. -/
theorem computePlan_eq_applied_iff {host : Host} {modules : Modules} (hx : x.Shows i)
    (hy : y.Shows i)
    (hplan : (computePlan { host, modules } config path schema).run x = (.ok p, x'))
    (happly : (applyPlan { host, modules } config path schema).run y = (.ok q, y')) :
    (∀ c st, Store.Runs (.quiet c) (y.since y') st →
        st = .quiet (c ++ q.operations.map fun d => ⟨d.text, []⟩)) ∧
      (p = q ↔ host.has path = true ∨ reconcile schema (.ofDescriptions [] []) = .ok q) ∧
      (i = .tables [] → p = q) := by
  have hp := computePlan_eq_ok rfl hx hplan
  obtain ⟨⟨tables, rfl, hq⟩, hstore⟩ := applyPlan_eq_ok rfl hy happly
  refine ⟨hstore, ?_⟩
  split at hp
  · next hhas =>
    obtain ⟨tables', htables, hp⟩ := hp
    obtain rfl := Inspection.tables.inj htables
    have hpq : p = q := Except.ok.inj (hp.symm.trans hq)
    exact ⟨iff_of_true hpq (.inl hhas), fun _ => hpq⟩
  · next hhas =>
    refine ⟨⟨fun hpq => .inr (hpq ▸ hp), ?_⟩, fun htables => ?_⟩
    · rintro (hhas' | hempty)
      · exact absurd hhas' hhas
      · exact Except.ok.inj (hp.symm.trans hempty)
    · obtain rfl := Inspection.tables.inj htables
      exact Except.ok.inj (hp.symm.trans hq)

end

namespace Previewed

def host : Host where
  directory := "/work"
  home := "/home/ada"
  files := [("/work/app.db", "")]
  env := []

def site : Site := { host, modules := [] }

def key : Column := { name := "id", kind := .integer, primaryKey := true }

def body : Column := { name := "body", kind := .text }

def note : Table := ⟨"note", [key, body]⟩

def declared : Schema := .ofDescriptions [note] []

def exchange (columns : Nat) : Exchange where
  inspections := [.tables [{ name := "note", columns := [
    { name := "id", type := .integer, keyPosition := 1 },
    { name := "body", type := .string }].take columns }]]

lemma shows_exchange (columns : Nat) :
    (exchange columns).Shows ((exchange columns).inspections.headD (.tables [])) :=
  ⟨nofun, fun _ hj => List.mem_singleton.mp hj⟩

end Previewed

open Previewed in
theorem computePlan_eq_applied_iff_grown :
    ∃ p q x' y', (computePlan site none "app.db" declared).run (exchange 1) = (.ok p, x') ∧
      (applyPlan site none "app.db" declared).run (exchange 1) = (.ok q, y') ∧ p = q ∧
      q = ⟨[.addColumn "note" body]⟩ := by
  have hplan : ((computePlan site none "app.db" declared).run (exchange 1)).1.toOption =
      some ⟨[.addColumn "note" body]⟩ := by decide +kernel
  have happly : ((applyPlan site none "app.db" declared).run (exchange 1)).1.toOption =
      some ⟨[.addColumn "note" body]⟩ := by decide +kernel
  obtain ⟨x', hplan⟩ := exists_run_eq_ok hplan
  obtain ⟨y', happly⟩ := exists_run_eq_ok happly
  have hshows := shows_exchange 1
  obtain ⟨-, hiff, -⟩ := computePlan_eq_applied_iff hshows hshows hplan happly
  exact ⟨_, _, x', y', hplan, happly, hiff.mpr (.inl (by decide +kernel)), rfl⟩

open Previewed in
/-- A path by way of a directory that is not there, to a database which is up to date. It is opened
to be migrated, and nothing has to be done; but the plan is to create its table. -/
theorem computePlan_ne_applied :
    (∃ place, Path.expandHome host.home "nodir/../app.db" = .ok place ∧
      host.hasFile (Path.resolve host.directory place) = true) ∧
      ∃ x' y', (computePlan site none "nodir/../app.db" declared).run (exchange 2) =
          (.ok ⟨[.createTable note]⟩, x') ∧
        (applyPlan site none "nodir/../app.db" declared).run (exchange 2) = (.ok ⟨[]⟩, y') := by
  have hplace : (Path.expandHome host.home "nodir/../app.db").toOption.map (fun place =>
      host.hasFile (Path.resolve host.directory place)) = some true := by decide +kernel
  have hplan : ((computePlan site none "nodir/../app.db" declared).run (exchange 2)).1.toOption =
      some ⟨[.createTable note]⟩ := by decide +kernel
  have happly : ((applyPlan site none "nodir/../app.db" declared).run (exchange 2)).1.toOption =
      some ⟨[]⟩ := by decide +kernel
  obtain ⟨x', hplan⟩ := exists_run_eq_ok hplan
  obtain ⟨y', happly⟩ := exists_run_eq_ok happly
  exact ⟨exists_eq_ok_of_map hplace, x', y', hplan, happly⟩

end Cli

end Tablewright
