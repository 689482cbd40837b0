import Tablewright.Proofs.Database.Store
import Tablewright.Proofs.Engine.Attempts
import Tablewright.Proofs.Engine.Course
import Tablewright.Proofs.Statement.Pieces

namespace Tablewright

lemma Exchange.reply_ask_of_ne (x : Exchange) {r q : Request} (event : Bool → Event) (h : q ≠ r)
    (i : Nat) : (x.ask r event).2.reply q i = x.reply q i := by
  simp only [ask, answer, reply]
  cases x.replies r with
  | nil => rfl
  | cons reply rest => simp only [record, if_neg h]

lemma Ddl.requestOf_text (d : Ddl) : Connection.requestOf d.text = .execute := by
  refine if_neg fun h => ?_
  have hhead : d.text.toList.head? = some 'B' := by rw [h]; rfl
  cases d with
  | createTable t =>
    simp only [text, Ddl.sql, List.cons_append, Sql.toList_text_cons] at hhead
    cases hhead
  | addColumn table c =>
    simp only [text, Ddl.sql, Sql.toList_text_cons] at hhead
    cases hhead
  | createIndex i =>
    simp only [text, Ddl.sql, List.cons_append, Sql.toList_text_cons, Piece.text,
      String.toList_append] at hhead
    cases hhead
  | dropIndex i =>
    simp only [text, Ddl.sql, Sql.toList_text_cons] at hhead
    cases hhead

namespace Connection

section

variable {declared : Schema} {x : Exchange} {c : Connection}

def planned (declared : Schema) (x : Exchange) : Except Failure Plan :=
  match x.inspections.headD (.tables []) with
  | .tables tables => (reconcile declared (.ofInspected tables)).mapError .migration
  | .failed message => .error (engineError "catalog" message false)

def did (c : Connection) (sql : String) : Event := .executed c.number sql [] true

inductive Applying (x : Exchange) (c : Connection) (sqls : List String) :
    Except Failure Unit → List Event → Prop
  | done : (∀ i < sqls.length, (x.reply .execute i).failure? = none) →
      Applying x c sqls (.ok ()) (sqls.map c.did)
  | stopped {k : Nat} {sql message : String} : sqls[k]? = some sql →
      (∀ i < k, (x.reply .execute i).failure? = none) → x.reply .execute k = .failed message →
      Applying x c sqls (.error (.migration (.ddlFailed sql message)))
        ((sqls.take k).map c.did ++ [Event.executed c.number sql [] false])

lemma run_apply_cons (d : Ddl) (ds : List Ddl) (x : Exchange) (c : Connection) :
    (apply (d :: ds)).run (x, c) =
      let asked := x.ask .execute (Event.executed c.number d.text [])
      match asked.1 with
      | .failed message => (.error (.migration (.ddlFailed d.text message)), asked.2, c)
      | _ => (apply ds).run (asked.2, c) := by
  have hrun : (apply (d :: ds)).run (x, c) = (do
      let _ ← Job.reword (ddlFailure d.text) (execute ⟨d.text, c.generation⟩ [])
      apply ds : Job Connection Unit).run (x, c) := rfl
  rw [hrun, Job.run_bind, Job.run_reword, run_execute, d.requestOf_text]
  generalize x.ask .execute (Event.executed c.number d.text []) = asked
  rcases asked with ⟨_ | _ | _, y⟩ <;> rfl

lemma run_apply_of_failed {d : Ddl} (ds : List Ddl) {message : String}
    (h : x.reply .execute 0 = .failed message) :
    (apply (d :: ds)).run (x, c) = (.error (.migration (.ddlFailed d.text message)),
      (x.ask .execute (Event.executed c.number d.text [])).2, c) := by
  rw [run_apply_cons]
  dsimp only
  rw [x.ask_fst, h]

lemma run_apply_of_done {d : Ddl} (ds : List Ddl) (h : (x.reply .execute 0).failure? = none) :
    (apply (d :: ds)).run (x, c) =
      (apply ds).run ((x.ask .execute (Event.executed c.number d.text [])).2, c) := by
  rw [run_apply_cons]
  dsimp only
  rw [x.ask_fst]
  cases hreply : x.reply .execute 0 with
  | done | rows => rfl
  | failed message =>
    rw [hreply] at h
    cases h

lemma Applying.cons {sql : String} {sqls : List String} {y : Exchange} {r : Except Failure Unit}
    {new : List Event} (hdone : (x.reply .execute 0).failure? = none)
    (hnext : ∀ i, y.reply .execute i = x.reply .execute (i + 1)) (h : Applying y c sqls r new) :
    Applying x c (sql :: sqls) r (c.did sql :: new) := by
  have hbefore {k : Nat} (hk : ∀ i < k, (y.reply .execute i).failure? = none) :
      ∀ i < k + 1, (x.reply .execute i).failure? = none := by
    intro i hi
    cases i with
    | zero => exact hdone
    | succ i => exact hnext i ▸ hk i (Nat.lt_of_succ_lt_succ hi)
  cases h with
  | done hall => exact .done (hbefore hall)
  | stopped hsql hk hfailed => exact .stopped (k := _ + 1) hsql (hbefore hk) (hnext _ ▸ hfailed)

lemma Applying.of_replies {sqls : List String} {y : Exchange} {r : Except Failure Unit}
    {new : List Event} (hsame : ∀ i, y.reply .execute i = x.reply .execute i)
    (h : Applying y c sqls r new) : Applying x c sqls r new := by
  cases h with
  | done hall => exact .done fun i hi => hsame i ▸ hall i hi
  | stopped hsql hbefore hfailed =>
    exact .stopped hsql (fun i hi => hsame i ▸ hbefore i hi) (hsame _ ▸ hfailed)

lemma exists_run_apply (ds : List Ddl) (x : Exchange) (c : Connection) :
    ∃ r x' new, (apply ds).run (x, c) = (r, x', c) ∧ x'.events = x.events ++ new ∧
      Applying x c (ds.map (·.text)) r new := by
  induction ds generalizing x with
  | nil => exact ⟨.ok (), x, [], rfl, (List.append_nil _).symm, .done nofun⟩
  | cons d ds ih =>
    have hevents := x.ask_events .execute (Event.executed c.number d.text [])
    rw [x.ask_fst] at hevents
    cases hfailure : (x.reply .execute 0).failure? with
    | none =>
      obtain ⟨r, x', new, hrun, hevents', happlying⟩ :=
        ih (x.ask .execute (Event.executed c.number d.text [])).2
      rw [hfailure] at hevents
      refine ⟨r, x', c.did d.text :: new, (run_apply_of_done ds hfailure).trans hrun, ?_,
        happlying.cons hfailure (x.reply_ask .execute _)⟩
      rw [hevents', hevents, List.append_assoc]
      rfl
    | some message =>
      have hreply : x.reply .execute 0 = .failed message := by
        cases hx : x.reply .execute 0 with
        | done | rows => rw [hx] at hfailure; cases hfailure
        | failed other => rw [hx] at hfailure; exact congrArg _ (Option.some.inj hfailure)
      rw [hfailure] at hevents
      exact ⟨_, _, _, run_apply_of_failed ds hreply, hevents,
        .stopped (k := 0) rfl (fun i hi => absurd hi i.not_lt_zero) hreply⟩

inductive Changing (declared : Schema) (x : Exchange) (c : Connection) :
    Except Failure Plan → List Event → Prop
  | unplanned {e : Failure} {ok : Bool} : planned declared x = .error e →
      (ok = true → ∃ m, e = .migration m) →
      Changing declared x c (.error e) [Event.inspected c.number ok]
  | stopped {plan : Plan} {e : Failure} {new : List Event} : planned declared x = .ok plan →
      Applying x c plan.statements (.error e) new →
      Changing declared x c (.error e) (Event.inspected c.number true :: new)
  | changed {plan : Plan} : planned declared x = .ok plan →
      Changing declared x c (.ok plan) (Event.inspected c.number true :: plan.statements.map c.did)

def change (declared : Schema) : Job Connection Plan := do
  let live ← readCatalog
  let plan ← Job.ofExcept .migration (reconcile declared live)
  apply plan.operations
  return plan

lemma run_change (declared : Schema) (x : Exchange) (c : Connection) :
    (change declared).run (x, c) =
      match planned declared x with
      | .error e => (.error e, (x.inspect c.number).2, c)
      | .ok plan => (do apply plan.operations; return plan : Job Connection Plan).run
          ((x.inspect c.number).2, c) := by
  rw [change, Job.run_bind, run_readCatalog, x.inspect_found, planned]
  cases x.inspections.headD (.tables []) with
  | failed message => rfl
  | tables tables =>
    dsimp only
    rw [Job.run_bind, Job.run_ofExcept]
    cases reconcile declared (.ofInspected tables) <;> rfl

lemma inspect_recorded (declared : Schema) (x : Exchange) (n : Nat) :
    ∃ ok, (x.inspect n).2.events = x.events ++ [Event.inspected n ok] ∧
      (∀ plan, planned declared x = .ok plan → ok = true) ∧
      ∀ e, planned declared x = .error e → ok = true → ∃ m, e = .migration m := by
  refine ⟨_, x.inspect_events n, ?_⟩
  rw [x.inspect_found, planned]
  cases x.inspections.headD (.tables []) with
  | failed message => exact ⟨nofun, nofun⟩
  | tables tables =>
    refine ⟨fun _ _ => rfl, fun e h _ => ?_⟩
    obtain ⟨m, -, rfl⟩ := mapError_eq_error_iff.mp h
    exact ⟨m, rfl⟩

lemma exists_run_change (declared : Schema) (x : Exchange) (c : Connection) :
    ∃ r x' new, (change declared).run (x, c) = (r, x', c) ∧ x'.events = x.events ++ new ∧
      Changing declared x c r new := by
  obtain ⟨ok, hevents, hok, hm⟩ := inspect_recorded declared x c.number
  rw [run_change]
  cases hplan : planned declared x with
  | error e => exact ⟨_, _, _, rfl, hevents, .unplanned hplan (hm e hplan)⟩
  | ok plan =>
    obtain rfl := hok plan hplan
    obtain ⟨r, x', new, hrun, hevents', happlying⟩ :=
      exists_run_apply plan.operations (x.inspect c.number).2 c
    have hall : x'.events = x.events ++ .inspected c.number true :: new := by
      rw [hevents', hevents, List.append_assoc]
      rfl
    dsimp only
    rw [Job.run_bind, hrun]
    cases r with
    | error e =>
      have hsame (i : Nat) : (x.inspect c.number).2.reply .execute i = x.reply .execute i := rfl
      exact ⟨_, _, _, rfl, hall, .stopped hplan (happlying.of_replies hsame)⟩
    | ok u =>
      cases happlying with
      | done hdone => exact ⟨_, _, _, rfl, hall, .changed hplan⟩

def missed (c : Connection) (count : Nat) : List Event :=
  (List.range count).flatMap c.waitedAttempt

def locked (c : Connection) (count : Nat) : List Event :=
  c.missed count ++ [Event.executed c.number beginText [] true]

/-- How a migration that may write ends, and what it leaves recorded. -/
inductive Migrating (declared : Schema) (x : Exchange) (c : Connection) :
    Except Failure Plan → List Event → Prop
  | unlocked (count : Nat) {e : Failure} : Migrating declared x c (.error e)
      (c.missed count ++ c.failedAttempt)
  | failed (count : Nat) {e : Failure} {new : List Event} : Changing declared x c (.error e) new →
      Migrating declared x c (.error e) (c.locked count ++ new ++ [Event.rolledBack c.number])
  | uncommitted (count : Nat) {plan : Plan} {new : List Event} (message : String) :
      Changing declared x c (.ok plan) new →
      Migrating declared x c (.error (engineError "COMMIT" message false))
        (c.locked count ++ new ++ [Event.committed c.number false, .rolledBack c.number])
  | migrated (count : Nat) {plan : Plan} {new : List Event} :
      Changing declared x c (.ok plan) new →
      Migrating declared x c (.ok plan) (c.locked count ++ new ++ [Event.committed c.number true])

structure SameCourse (w w' : Exchange × Connection) : Prop where
  replies : ∀ i, w'.1.reply .execute i = w.1.reply .execute i
  inspections : w'.1.inspections = w.1.inspections

instance : IsPreorder (Exchange × Connection) SameCourse where
  refl _ := ⟨fun _ => rfl, rfl⟩
  trans _ _ _ h h' :=
    ⟨fun i => (h'.replies i).trans (h.replies i), h'.inspections.trans h.inspections⟩

lemma sameCourse_locks : Locks SameCourse where
  begun x _ := ⟨x.reply_ask_of_ne _ nofun, x.ask_inspections _ _⟩
  rolledBack _ _ := ⟨fun _ => rfl, rfl⟩
  slept _ _ _ := ⟨fun _ => rfl, rfl⟩

lemma SameCourse.changing {y : Exchange} {r : Except Failure Plan} {new : List Event}
    (h : SameCourse (x, c) (y, c)) (hchanging : Changing declared y c r new) :
    Changing declared x c r new := by
  have hplanned : planned declared y = planned declared x := by
    rw [planned, planned, h.inspections]
  cases hchanging with
  | unplanned hplan hm => exact .unplanned (hplanned ▸ hplan) hm
  | changed hplan => exact .changed (hplanned ▸ hplan)
  | stopped hplan happlying => exact .stopped (hplanned ▸ hplan) (happlying.of_replies h.replies)

inductive Concluding {α : Type} (c : Connection) :
    Except Failure α → Except Failure α → List Event → Prop
  | failed (e : Failure) : Concluding c (.error e) (.error e) [.rolledBack c.number]
  | uncommitted (a : α) (message : String) :
      Concluding c (.ok a) (.error (engineError "COMMIT" message false))
        [.committed c.number false, .rolledBack c.number]
  | committed (a : α) : Concluding c (.ok a) (.ok a) [.committed c.number true]

lemma exists_run_concluding {α : Type} {work : Job Connection α} {r : Except Failure α}
    {x x' : Exchange} (h : work.run (x, c) = (r, x', c)) :
    ∃ r' y new, (Job.undoing (do let a ← work; commit; return a) rollback).run (x, c) = (r', y, c) ∧
      y.events = x'.events ++ new ∧ Concluding c r r' new := by
  rw [Job.run_undoing, Job.run_bind, h]
  cases r with
  | error e => exact ⟨_, _, _, rfl, rfl, .failed e⟩
  | ok a =>
    have hasked := x'.ask_events .commit (.committed c.number)
    dsimp only
    rw [Job.run_bind, run_commit]
    dsimp only
    cases hfailure : (x'.ask .commit (.committed c.number)).1.failure? with
    | none =>
      rw [hfailure] at hasked
      exact ⟨_, _, _, rfl, hasked, .committed a⟩
    | some message =>
      rw [hfailure] at hasked
      refine ⟨_, _, _, rfl, ?_, .uncommitted a message⟩
      show (Exchange.events _ ++ [_] : List Event) = _
      rw [hasked, List.append_assoc]
      rfl

lemma exists_run_migrate (declared : Schema) (x : Exchange) (c : Connection) :
    ∃ r x' new, (migrate declared false).run (x, c) = (r, x', c) ∧
      x'.events = x.events ++ new ∧ Migrating declared x c r new := by
  have hmigrate : migrate declared false = inTransaction (change declared) := rfl
  obtain ⟨count, -, -, r, y, new, hlock, hending, hevents⟩ := exists_run_takeLock x c
  have hsame := sameCourse_locks.takeLock (x, c)
  rw [hlock] at hsame
  rw [hmigrate, inTransaction, Job.run_bind, hlock]
  cases hending with
  | refused | unwaited =>
    exact ⟨_, _, _, rfl, by rw [hevents, List.append_assoc]; rfl, .unlocked count⟩
  | taken =>
    have hlocked : y.events = x.events ++ c.locked count := by
      rw [hevents, List.append_assoc]
      rfl
    obtain ⟨r, z, new, hchange, hchanged, hchanging⟩ := exists_run_change declared y c
    obtain ⟨r', x', last, hrun, hlast, hconcluding⟩ := exists_run_concluding hchange
    have hall : x'.events = x.events ++ (c.locked count ++ new ++ last) := by
      rw [hlast, hchanged, hlocked]
      simp only [List.append_assoc]
    have hcourse := hsame.changing hchanging
    refine ⟨r', x', _, hrun, hall, ?_⟩
    cases hconcluding with
    | failed e => exact .failed count hcourse
    | uncommitted plan message => exact .uncommitted count message hcourse
    | committed plan => exact .migrated count hcourse

section Events

variable {count : Nat} {e : Event} {r : Except Failure Plan} {new : List Event}

lemma mem_missed (h : e ∈ c.missed count) : e ∈ c.failedAttempt ∨ ∃ delay, e = .slept delay := by
  obtain ⟨attempt, -, he⟩ := List.mem_flatMap.mp h
  exact (List.mem_append.mp he).imp_right fun he => ⟨_, List.mem_singleton.mp he⟩

lemma missed_eq_nil (h : ∀ e ∈ c.missed count, e.failed = false) : c.missed count = [] := by
  cases count with
  | zero => rfl
  | succ count =>
    have hfirst : .executed c.number beginText [] false ∈ c.missed (count + 1) :=
      List.mem_flatMap.mpr ⟨0, List.mem_range.mpr count.succ_pos, List.mem_cons_self⟩
    cases h _ hfirst

lemma Migrating.of_unfailed (h : Migrating declared x c r new) (hnew : ∀ e ∈ new, e.failed = false) :
    (∃ m, planned declared x = .error (.migration m) ∧ r = .error (.migration m)) ∨
    ∃ plan, planned declared x = .ok plan ∧ r = .ok plan ∧
      new = .executed c.number beginText [] true :: .inspected c.number true ::
        (plan.statements.map c.did ++ [Event.committed c.number true]) := by
  cases h with
  | unlocked count =>
    cases hnew (Event.executed c.number beginText [] false)
      (List.mem_append_right _ List.mem_cons_self)
  | uncommitted count message =>
    cases hnew (.committed c.number false) (List.mem_append_right _ List.mem_cons_self)
  | failed count hchanging =>
    cases hchanging with
    | unplanned hplan hm =>
      refine Or.inl ?_
      obtain ⟨m, rfl⟩ := hm (by simpa [Event.failed] using hnew (Event.inspected c.number _) (by simp))
      exact ⟨m, hplan, rfl⟩
    | stopped hplan happlying =>
      cases happlying with
      | @stopped k sql message => cases hnew (Event.executed c.number sql [] false) (by simp)
  | @migrated count plan _ hchanging =>
    cases hchanging with
    | changed hplan =>
      have hmissed : c.missed count = [] :=
        missed_eq_nil fun e he => hnew e (by simp [locked, he])
      refine Or.inr ⟨plan, hplan, rfl, ?_⟩
      rw [locked, hmissed]
      rfl

lemma executed_of_mem_locked {sql : String} {values : List Value} {ok : Bool}
    (h : .executed c.number sql values ok ∈ c.locked count) : sql = beginText := by
  rcases List.mem_append.mp h with h | h
  · obtain h | ⟨delay, h⟩ := mem_missed h
    · cases h with
      | head => rfl
      | tail _ h => cases List.mem_singleton.mp h
    · cases h
  · cases List.mem_singleton.mp h
    rfl

lemma not_failed_of_did {sql : String} {values : List Value} {sqls : List String} :
    .executed c.number sql values false ∉ sqls.map c.did := by
  intro h
  obtain ⟨q, -, hq⟩ := List.mem_map.mp h
  cases hq

lemma Migrating.of_failed {sql : String} {values : List Value} (h : Migrating declared x c r new)
    (he : .executed c.number sql values false ∈ new) (hsql : sql ≠ beginText) :
    ∃ count plan k message, planned declared x = .ok plan ∧ plan.statements[k]? = some sql ∧
      x.reply .execute k = .failed message ∧ r = .error (.migration (.ddlFailed sql message)) ∧
      new = c.locked count ++ (Event.inspected c.number true :: ((plan.statements.take k).map c.did ++
        [Event.executed c.number sql [] false, .rolledBack c.number])) := by
  have hlocked (count : Nat) : .executed c.number sql values false ∉ c.locked count :=
    fun h => hsql (executed_of_mem_locked h)
  cases h with
  | unlocked count =>
    rcases List.mem_append.mp he with he | he
    · exact absurd (List.mem_append_left _ he) (hlocked count)
    · cases he with
      | head => exact absurd rfl hsql
      | tail _ he => cases List.mem_singleton.mp he
  | uncommitted count message hchanging =>
    cases hchanging with
    | changed => simp [hlocked count, not_failed_of_did] at he
  | migrated count hchanging =>
    cases hchanging with
    | changed => simp [hlocked count, not_failed_of_did] at he
  | failed count hchanging =>
    cases hchanging with
    | unplanned => simp [hlocked count] at he
    | @stopped plan _ _ hplan happlying =>
      cases happlying with
      | @stopped k q message hq hbefore hfailed =>
        obtain ⟨rfl, -⟩ : sql = q ∧ values = [] := by
          simpa [hlocked count, ← List.map_take, not_failed_of_did] using he
        exact ⟨count, plan, k, message, hplan, hq, hfailed, rfl, by simp⟩

section Runs

variable {before p : List Executed} {s : Session}

lemma runs_failedAttempt (h : Session.Runs c.number ⟨before, none⟩ c.failedAttempt s) :
    s = ⟨before, none⟩ := by
  obtain ⟨m, hrefused, hrolled⟩ := h
  rw [(steps_singleton.mp hrolled).of_rolledBack, hrefused.committed_of_failed rfl]

lemma runs_waitedAttempt {attempt : Nat}
    (h : Session.Runs c.number ⟨before, none⟩ (c.waitedAttempt attempt) s) :
    s = ⟨before, none⟩ := by
  obtain ⟨m, hm, hslept⟩ := steps_append.mp h
  obtain rfl := runs_failedAttempt hm
  cases steps_singleton.mp hslept
  rfl

lemma runs_locked (h : Session.Runs c.number ⟨before, none⟩ (c.locked count) s) :
    s = ⟨before, some []⟩ := by
  obtain ⟨m, hm, hbegun⟩ := steps_append.mp h
  have hmissed : m = ⟨before, none⟩ := by
    clear h hbegun
    induction count generalizing m with
    | zero => exact hm
    | succ count ih =>
      rw [missed, List.range_succ, List.flatMap_append, List.flatMap_singleton] at hm
      obtain ⟨m', hm', hlast⟩ := steps_append.mp hm
      obtain rfl := ih m' hm'
      exact runs_waitedAttempt hlast
  obtain rfl := hmissed
  exact (steps_singleton.mp hbegun).of_begin

lemma runs_did {sqls : List String}
    (h : Session.Runs c.number ⟨before, some p⟩ (sqls.map c.did) s) :
    s = ⟨before, some (p ++ sqls.map fun sql => ⟨sql, []⟩)⟩ := by
  induction sqls generalizing p with
  | nil => rw [List.map_nil, List.append_nil]; exact h
  | cons sql sqls ih =>
    obtain ⟨m, hm, hrest⟩ := h
    obtain rfl := hm.of_executed
    rw [ih hrest, List.append_assoc]
    rfl

lemma runs_stopped {sql : String} {sqls : List String}
    (h : Session.Runs c.number ⟨before, none⟩ (c.locked count ++ (Event.inspected c.number true ::
      (sqls.map c.did ++ [Event.executed c.number sql [] false, .rolledBack c.number]))) s) :
    s = ⟨before, none⟩ := by
  obtain ⟨m, hlocked, m', hinspected, hrest⟩ := steps_append.mp h
  obtain rfl := runs_locked hlocked
  obtain rfl := hinspected.of_inspected
  obtain ⟨m, hdid, m', hfailed, hrolled⟩ := steps_append.mp hrest
  obtain rfl := runs_did hdid
  rw [(steps_singleton.mp hrolled).of_rolledBack, hfailed.committed_of_failed rfl]

end Runs

end Events

lemma run_check (declared : Schema) (x : Exchange) (c : Connection) :
    (migrate declared true).run (x, c) =
      (match planned declared x with
        | .error e => .error e
        | .ok plan =>
          match plan.statements with
          | [] => .ok plan
          | sql :: _ => .error (.migration (.ddlFailed sql "database is read-only")),
        (x.inspect c.number).2.record (.rolledBack c.number), c) := by
  rw [migrate, if_pos rfl, Job.run_bind, run_readCatalogOnly, run_readCatalog, x.inspect_found,
    planned]
  cases x.inspections.headD (.tables []) with
  | failed message => rfl
  | tables tables =>
    dsimp only
    rw [Job.run_bind, Job.run_ofExcept]
    cases reconcile declared (.ofInspected tables) with
    | error m => rfl
    | ok plan =>
      have hplan : (Except.ok plan : Except MigrationError Plan).mapError Failure.migration =
          .ok plan := rfl
      rw [hplan]
      dsimp only
      cases plan.statements <;> rfl

def Stops (sql reason : String) (r : Except Failure Plan) : Prop :=
  ∃ m : MigrationError, r = .error (.migration m) ∧ m.report.code = .migrationDdlFailed ∧
    m.report.details = [("sql", .text sql), ("reason", .text reason)]

lemma stops_ddlFailed (sql reason : String) :
    Stops sql reason (.error (.migration (.ddlFailed sql reason))) := ⟨_, rfl, rfl, rfl⟩

/-- A connection that only reads is asked for a look at the catalog, and gives it up in any case.
Where nothing fails, its migration comes to what the one that writes comes to, except that it stops
at the first statement of a plan that has any. A migration that writes and has a statement fail has
run those before it and nothing more; it stops there with what the engine said, and leaves
nothing. -/
theorem migrate_rehearsed (declared : Schema) (x : Exchange) (c : Connection) :
    let reading := (migrate declared true).run (x, c)
    let writing := (migrate declared false).run (x, c)
    (reading.2 = ((x.inspect c.number).2.record (.rolledBack c.number), c) ∧
      ∃ ok, x.since reading.2.1 = [Event.inspected c.number ok, .rolledBack c.number]) ∧
    ((∀ e ∈ x.since writing.2.1, e.failed = false) →
      (∃ m, planned declared x = .error (.migration m) ∧
        reading.1 = .error (.migration m) ∧ writing.1 = .error (.migration m)) ∨
      ∃ plan, planned declared x = .ok plan ∧ writing.1 = .ok plan ∧
        x.since writing.2.1 = .executed c.number beginText [] true :: .inspected c.number true ::
          (plan.statements.map c.did ++ [Event.committed c.number true]) ∧
        (plan.statements = [] → reading.1 = .ok plan) ∧
        ∀ sql, plan.statements.head? = some sql → Stops sql "database is read-only" reading.1) ∧
    ∀ sql values, .executed c.number sql values false ∈ x.since writing.2.1 → sql ≠ beginText →
      ∃ count plan k message, planned declared x = .ok plan ∧ plan.statements[k]? = some sql ∧
        x.reply .execute k = .failed message ∧ Stops sql message writing.1 ∧
        x.since writing.2.1 = c.locked count ++ (Event.inspected c.number true ::
          ((plan.statements.take k).map c.did ++
            [Event.executed c.number sql [] false, .rolledBack c.number])) ∧
        ∀ before s, Session.Runs c.number ⟨before, none⟩ (x.since writing.2.1) s →
          s = ⟨before, none⟩ := by
  intro reading writing
  obtain ⟨r, x', new, hrun, hevents, hmigrating⟩ := exists_run_migrate declared x c
  obtain ⟨ok, hinspected, -⟩ := inspect_recorded declared x c.number
  have hreading : reading = _ := run_check declared x c
  have hresult : writing.1 = r := congrArg Prod.fst hrun
  have hsince : x.since writing.2.1 = new := by
    refine Exchange.since_eq ?_
    rw [show writing = (r, x', c) from hrun, hevents]
  rw [hresult, hsince, hreading]
  refine ⟨⟨rfl, ok, Exchange.since_eq ?_⟩, fun hnew => ?_, fun sql values he hsql => ?_⟩
  · show _ ++ [_] = _
    rw [hinspected, List.append_assoc]
    rfl
  · obtain ⟨m, hplan, hr⟩ | ⟨plan, hplan, hr, hnew⟩ := hmigrating.of_unfailed hnew
    · rw [hplan]
      exact Or.inl ⟨m, rfl, rfl, hr⟩
    · rw [hplan]
      refine Or.inr ⟨plan, rfl, hr, hnew, fun hnil => ?_, fun sql hsql => ?_⟩
      · dsimp only
        rw [hnil]
      · obtain ⟨rest, hrest⟩ := List.head?_eq_some_iff.mp hsql
        dsimp only
        rw [hrest]
        exact stops_ddlFailed sql _
  · obtain ⟨count, plan, k, message, hplan, hk, hreply, hr, hnew⟩ := hmigrating.of_failed he hsql
    refine ⟨count, plan, k, message, hplan, hk, hreply, hr ▸ stops_ddlFailed sql message, hnew,
      fun before s hs => ?_⟩
    rw [hnew] at hs
    exact runs_stopped hs

end

namespace Halted

def table (name : String) : Table :=
  ⟨name, [{ name := "id", kind := .integer, primaryKey := true }]⟩

def declared : Schema := .ofDescriptions [table "note", table "tag"] []

def connection : Connection := ⟨.writer, {}, 1, 1, {}, false⟩

def exchange : Exchange where
  replies
    | .execute => [.done 0, .failed "disk I/O error"]
    | _ => []

def second : String := (Ddl.createTable (table "tag")).text

end Halted

open Halted in
theorem migrate_rehearsed_halted : ∃ k message, exchange.reply .execute k = .failed message ∧
    Stops second message ((migrate declared false).run (exchange, connection)).1 := by
  have hfailed : .executed 1 second [] false ∈
      exchange.since ((migrate declared false).run (exchange, connection)).2.1 := by
    have hsince : exchange.since ((migrate declared false).run (exchange, connection)).2.1 =
        [Event.executed 1 beginText [] true, .inspected 1 true,
          connection.did (Ddl.createTable (table "note")).text, .executed 1 second [] false,
          .rolledBack 1] := rfl
    rw [hsince]
    simp
  have hsql : second ≠ beginText := by decide +kernel
  obtain ⟨-, -, hstopped⟩ := migrate_rehearsed declared exchange connection
  obtain ⟨-, -, k, message, -, -, hreply, hstops, -⟩ := hstopped second [] hfailed hsql
  exact ⟨k, message, hreply, hstops⟩

end Connection

end Tablewright
