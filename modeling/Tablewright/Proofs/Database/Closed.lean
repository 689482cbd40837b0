import Mathlib.Data.List.Count
import Tablewright.Proofs.Database.Write
import Tablewright.Proofs.Statement.Pieces

namespace Tablewright

open Job (Moves)

namespace Event

def makes (n : Nat) : Event → Bool
  | connected m ok => ok && m == n
  | _ => false

def shuts (n : Nat) : Event → Bool
  | closed m => m == n
  | _ => false

def Ordinary (e : Event) : Prop := ∀ n, e.makes n = false ∧ e.shuts n = false

lemma ordinary_of_not_bounds {e : Event} (h : ¬ e.Bounds) : e.Ordinary := by
  intro n
  cases e with
  | connected | closed => exact absurd trivial h
  | executed | committed | rolledBack | ranScript | inspected | slept | disposed => exact ⟨rfl, rfl⟩

lemma countP_append_of_ordinary {p : Event → Bool} (es : List Event) {new : List Event}
    (h : ∀ e ∈ new, e.Ordinary) (hp : ∀ e : Event, e.Ordinary → p e = false) :
    (es ++ new).countP p = es.countP p := by
  have hnone : new.countP p = 0 := List.countP_eq_zero.mpr fun e he => by simp [hp e (h e he)]
  rw [List.countP_append, hnone, Nat.add_zero]

end Event

namespace Database

def live (d : Database) : List Nat :=
  (if d.writer.closed then [] else [d.writer.number]) ++ d.readers.map (·.2.number)

/-- The account of the connections of a database over all that has happened: none was made twice,
and those that were not closed are the ones that the database has. Numbers above `last` have not
been given yet. -/
structure Ledger (es : List Event) (last : Nat) (d : Database) : Prop where
  balance : ∀ n, es.countP (Event.makes n) = es.countP (Event.shuts n) + d.live.count n
  once : ∀ n, es.countP (Event.makes n) ≤ 1
  unused : ∀ n, last < n → es.countP (Event.makes n) = 0
  readers : ∀ r ∈ d.readers, r.2.closed = false
  closed : d.closed = true → d.live = [] ∧ d.readsApart = false

def Accounts (w w' : Exchange × Database) : Prop :=
  ∃ new, w'.1.events = w.1.events ++ new ∧
    ∀ es, Ledger es w.1.attempts w.2 → Ledger (es ++ new) w'.1.attempts w'.2

namespace Accounts

variable {w w' w'' : Exchange × Database}

lemma refl (w : Exchange × Database) : Accounts w w :=
  ⟨[], (List.append_nil _).symm, fun es h => (List.append_nil es).symm ▸ h⟩

lemma trans (h : Accounts w w') (h' : Accounts w' w'') : Accounts w w'' := by
  obtain ⟨new, hevents, hnew⟩ := h
  obtain ⟨new', hevents', hnew'⟩ := h'
  refine ⟨new ++ new', by rw [hevents', hevents, List.append_assoc], fun es hes => ?_⟩
  rw [← List.append_assoc]
  exact hnew' _ (hnew es hes)

instance : IsPreorder (Exchange × Database) Accounts where
  refl := refl
  trans _ _ _ := trans

lemma of_ordinary {new : List Event} (hevents : w'.1.events = w.1.events ++ new)
    (hnew : ∀ e ∈ new, e.Ordinary) (hattempts : w.1.attempts ≤ w'.1.attempts)
    (hlive : w'.2.live = w.2.live)
    (hreaders : (∀ r ∈ w.2.readers, r.2.closed = false) → ∀ r ∈ w'.2.readers, r.2.closed = false)
    (hclosed : w'.2.closed = w.2.closed) (hapart : w'.2.readsApart = w.2.readsApart) :
    Accounts w w' := by
  have hmakes (es : List Event) (n : Nat) := Event.countP_append_of_ordinary es hnew
    fun _ he => (he n).1
  have hshuts (es : List Event) (n : Nat) := Event.countP_append_of_ordinary es hnew
    fun _ he => (he n).2
  refine ⟨new, hevents, fun es h => ⟨fun n => ?_, fun n => ?_, fun n hn => ?_, hreaders h.readers,
    fun hc => ?_⟩⟩
  · rw [hmakes, hshuts, hlive]
    exact h.balance n
  · rw [hmakes]
    exact h.once n
  · rw [hmakes]
    exact h.unused n (Nat.lt_of_le_of_lt hattempts hn)
  · rw [hlive, hapart]
    exact h.closed (hclosed ▸ hc)

end Accounts

lemma numbers_putReader {slot : Nat} {k k' : Connection} {rs : List (Nat × Connection)}
    (h : rs.lookup slot = some k) (hnumber : k'.number = k.number) :
    (putReader slot k' rs).map (·.2.number) = rs.map (·.2.number) := by
  induction rs with
  | nil => cases h
  | cons r rs ih =>
    obtain ⟨n, old⟩ := r
    by_cases hn : n = slot
    · obtain rfl : old = k := by simpa [hn] using h
      simp [putReader, hn, hnumber]
    · rw [List.lookup_cons, beq_false_of_ne (Ne.symm hn)] at h
      simp [putReader, hn, ih h]

lemma putReader_of_lookup_none {slot : Nat} (k : Connection) {rs : List (Nat × Connection)}
    (h : rs.lookup slot = none) : putReader slot k rs = rs ++ [(slot, k)] := by
  induction rs with
  | nil => rfl
  | cons r rs ih =>
    obtain ⟨n, old⟩ := r
    by_cases hn : n = slot
    · simp [hn] at h
    · rw [List.lookup_cons, beq_false_of_ne (Ne.symm hn)] at h
      rw [putReader, if_neg hn, ih h, List.cons_append]

lemma live_shut (d : Database) :
    live { d with readers := [], writer := shut d.writer, readsApart := false, closed := true } =
      [] := by
  have hshut : (shut d.writer).closed = true := by
    rw [shut]
    split <;> first | assumption | rfl
  rw [live, if_pos hshut]
  rfl

lemma countP_makes_connected (n m : Nat) :
    [Event.connected m true].countP (Event.makes n) = if m = n then 1 else 0 := by
  by_cases hn : m = n <;> simp [Event.makes, hn]

lemma countP_shuts_closings (n : Nat) (ks : List Connection) :
    (closings ks).countP (Event.shuts n) = ((ks.filter (!·.closed)).map (·.number)).count n := by
  rw [closings, List.countP_map, List.count, List.countP_map]
  rfl

lemma count_live (n : Nat) {d : Database} (h : ∀ r ∈ d.readers, r.2.closed = false) :
    d.live.count n = (partings d).countP (Event.shuts n) := by
  have hreaders : (d.readers.map (·.2)).filter (!·.closed) = d.readers.map (·.2) := by
    refine List.filter_eq_self.mpr fun k hk => ?_
    obtain ⟨r, hr, rfl⟩ := List.mem_map.mp hk
    simp [h r hr]
  have hwriter : (([d.writer].filter (!·.closed)).map (·.number)) =
      if d.writer.closed then [] else [d.writer.number] := by
    cases hc : d.writer.closed <;> simp [hc]
  have hdisposed : [Event.disposed].countP (Event.shuts n) = 0 := rfl
  rw [partings, List.countP_append, List.countP_append, countP_shuts_closings,
    countP_shuts_closings, hreaders, hwriter, hdisposed, live, List.count_append, List.map_map]
  exact Nat.add_comm _ _

lemma countP_makes_partings (n : Nat) (d : Database) : (partings d).countP (Event.makes n) = 0 := by
  refine List.countP_eq_zero.mpr fun e he => ?_
  rcases List.mem_append.mp he with he | he
  · rcases List.mem_append.mp he with he | he <;> obtain ⟨k, -, rfl⟩ := List.mem_map.mp he <;> nofun
  · exact List.mem_singleton.mp he ▸ nofun

lemma accounts_joined {x x' : Exchange} {d : Database} {slot : Nat} {k : Connection}
    (happart : d.readsApart = true) (hnone : d.readers.lookup slot = none)
    (hconnect : (Connection.connect .reader d.settings).run (x, ()) = (.ok k, x', ())) :
    Accounts (x, d) (x', { d with readers := putReader slot k d.readers }) := by
  obtain ⟨-, -, hevents⟩ := Connection.connect_eq_ok hconnect
  obtain ⟨hnumber, hopen⟩ := Connection.connect_number hconnect
  have hattempts := Connection.connect_attempts .reader d.settings x
  rw [hconnect] at hattempts
  have hlive (n : Nat) : (live { d with readers := putReader slot k d.readers }).count n =
      d.live.count n + if k.number = n then 1 else 0 := by
    simp only [live, putReader_of_lookup_none k hnone, List.map_append, ← List.append_assoc,
      List.count_append, List.map_cons, List.map_nil, List.count_singleton, beq_iff_eq]
  refine ⟨_, hevents, fun es h => ⟨fun n => ?_, fun n => ?_, fun n hn => ?_, fun r hr => ?_,
    fun hc => ?_⟩⟩
  · have hshuts : [Event.connected k.number true].countP (Event.shuts n) = 0 := rfl
    rw [List.countP_append, List.countP_append, countP_makes_connected, hlive, hshuts, h.balance n,
      Nat.add_zero, Nat.add_assoc]
  · rw [List.countP_append, countP_makes_connected]
    split
    · next hn =>
      have hfresh : x.attempts < n := by omega
      exact Nat.le_of_eq (congrArg (· + 1) (h.unused n hfresh))
    · exact h.once n
  · have hlast : x.attempts + 1 < n := lt_of_eq_of_lt hattempts.symm hn
    have hfresh : x.attempts < n := by omega
    rw [List.countP_append, countP_makes_connected, h.unused n hfresh, if_neg (by omega)]
  · rcases mem_putReader hr with rfl | hr
    · exact hopen
    · exact h.readers r hr
  · exact absurd (happart.symm.trans (h.closed hc).2) nofun

lemma Accounts.of_served {x x' : Exchange} {d d' : Database} {k k' : Connection}
    (h : Connection.Served (x, k) (x', k')) (hlive : d'.live = d.live)
    (hreaders : (∀ r ∈ d.readers, r.2.closed = false) → ∀ r ∈ d'.readers, r.2.closed = false)
    (hclosed : d'.closed = d.closed) (hapart : d'.readsApart = d.readsApart) :
    Accounts (x, d) (x', d') := by
  obtain ⟨-, hattempts, new, hevents, hnew⟩ := h.works
  exact .of_ordinary hevents (fun e he => Event.ordinary_of_not_bounds (hnew e he).2)
    (Nat.le_of_eq hattempts.symm) hlive hreaders hclosed hapart

lemma accounts_abort (w : Exchange × Database) : Accounts w (abort w).2 := by
  rw [abort_eq]
  refine ⟨_, rfl, fun es h => ⟨fun n => ?_, fun n => ?_, fun n hn => ?_, ?_, ?_⟩⟩
  · rw [List.countP_append, List.countP_append, countP_makes_partings, ← count_live n h.readers,
      live_shut, h.balance n]
    rfl
  · rw [List.countP_append, countP_makes_partings]
    exact h.once n
  · rw [List.countP_append, countP_makes_partings]
    exact h.unused n hn
  · exact fun r hr => absurd hr List.not_mem_nil
  · exact fun _ => ⟨live_shut w.2, rfl⟩

lemma accounts_step {w w' : Exchange × Database} (h : Step w w') : Accounts w w' := by
  cases h with
  | @writer x x' d k h =>
    have hclosed : k.closed = d.writer.closed := h.works.closed
    have hnumber : k.number = d.writer.number := h.works.number
    refine .of_served h ?_ id rfl rfl
    simp only [live, hclosed, hnumber]
  | @reader x x' d slot k k' hk h =>
    have hsame : k'.closed = k.closed := h.works.closed
    refine .of_served h ?_ (fun hreaders r hr => ?_) rfl rfl
    · simp only [live, numbers_putReader hk h.works.number]
    · rcases mem_putReader hr with rfl | hr
      · exact hsame.trans (hreaders _ (mem_of_lookup hk))
      · exact hreaders r hr
  | joined happart hnone hconnect => exact accounts_joined happart hnone hconnect
  | @refused x x' d e hconnect =>
    have hattempts := Connection.connect_attempts .reader d.settings x
    rw [hconnect] at hattempts
    refine .of_ordinary (Connection.connect_eq_error hconnect) (fun e he n => ?_)
      (hattempts ▸ Nat.le_succ _) rfl id rfl rfl
    exact List.mem_singleton.mp he ▸ ⟨rfl, rfl⟩
  | cleared =>
    refine .of_ordinary (List.append_nil _).symm nofun (Nat.le_refl _) ?_ (fun hreaders r hr => ?_)
      rfl rfl
    · exact congrArg (_ ++ ·) (List.map_map ..)
    · obtain ⟨s, hs, rfl⟩ := List.mem_map.mp hr
      exact hreaders s hs
  | noted => exact .of_ordinary (List.append_nil _).symm nofun (Nat.le_refl _) rfl id rfl rfl
  | aborted => exact accounts_abort w

lemma ledger_connected {k : Connection} {last : Nat} {d : Database} (hopen : k.closed = false)
    (hlast : k.number ≤ last) (hwriter : d.writer = k) (hreaders : d.readers = [])
    (hclosed : d.closed = false) : Ledger [.connected k.number true] last d := by
  have hlive : d.live = [k.number] := by
    rw [live, hwriter, hopen, hreaders]
    rfl
  have hshuts (n : Nat) : [Event.connected k.number true].countP (Event.shuts n) = 0 := rfl
  refine ⟨fun n => ?_, fun n => ?_, fun n hn => ?_, fun r hr => ?_, fun hc => ?_⟩
  · rw [countP_makes_connected, hshuts, hlive, List.count_singleton, Nat.zero_add]
    simp only [beq_iff_eq]
  · rw [countP_makes_connected]
    split <;> omega
  · rw [countP_makes_connected, if_neg (by omega)]
  · rw [hreaders] at hr
    cases hr
  · cases hclosed.symm.trans hc

lemma accounts_openMigrated {schema : Schema} {settings : DatabaseSettings} {x x₀ : Exchange}
    {d : Database} (h : (openMigrated schema settings).run (x, ()) = (.ok d, x₀, ())) :
    ∃ new, x₀.events = x.events ++ new ∧ Ledger new x₀.attempts d := by
  obtain ⟨writer, x₁, readsApart, hconnect, hwalk⟩ := walks_openMigrated h
  obtain ⟨-, -, hevents⟩ := Connection.connect_eq_ok hconnect
  obtain ⟨hnumber, hopen⟩ := Connection.connect_number hconnect
  have hattempts := Connection.connect_attempts .writer settings x
  rw [hconnect] at hattempts
  obtain ⟨new, hnew, haccounts⟩ := hwalk.along fun _ _ => accounts_step
  exact ⟨[.connected writer.number true] ++ new, by rw [hnew, hevents, List.append_assoc],
    haccounts _ (ledger_connected hopen (Nat.le_of_eq (hnumber.trans hattempts.symm)) rfl rfl rfl)⟩

inductive Call where
  | send (way : Way) (q : Query) (given : Supplied) (slot : Nat)
  | prepare (q : Query)
  | createIndex (i : Index)
  | createIndexOn (table : String) (columns : List String) (unique : Bool)
  | dropIndex (i : Index)
  | dropIndexNamed (name : String)
  | listIndexes (table : Option String)
  | migrate
  | catalog
  | batch (script : String)
  | close

namespace Call

def job : Call → Job Database Unit
  | send way q given slot => do let _ ← way.call q given slot
  | prepare q => do let _ ← Database.prepare q
  | createIndex i => Database.createIndex i
  | createIndexOn table columns unique => do
    let _ ← Database.createIndexOn table columns unique
  | dropIndex i => Database.dropIndex i
  | dropIndexNamed name => Database.dropIndexNamed name
  | listIndexes table => do let _ ← Database.listIndexes table
  | migrate => do let _ ← Database.migrate
  | catalog => do let _ ← Database.catalog
  | batch script => Database.runBatch script
  | close => Job.sure Database.close

/-- Whether a call other than a closing has nothing wrong with it: what is to be run compiles and
has its values, and an index to be created fits the schema. -/
def Ready (schema : Schema) : Call → Prop
  | send way q given _ => ∃ c values, (way.asked q).compile = .ok c ∧ c.bind given = .ok values
  | prepare q => ∃ c, q.compile = .ok c
  | createIndex i => checkIndex schema i = .ok ()
  | createIndexOn table columns unique => checkIndex schema (.on table columns unique) = .ok ()
  | dropIndex _ | dropIndexNamed _ | listIndexes _ | migrate | catalog | batch _ => True
  | close => False

def refusal : Call → Failure
  | migrate => .migration (.ddlFailed "migration" "Database is closed")
  | _ => .execution .closed

end Call

lemma walks_call (way : Way) (q : Query) (given : Supplied) (slot : Nat) :
    Moves Walks (way.call q given slot) := by
  cases way with
  | execute => exact walks_execute q given slot
  | fetchAll into => exact walks_fetchAll q into given slot
  | fetchOne into => exact walks_fetchOne q into given slot
  | returning into => exact walks_returning q into given slot

lemma walks_asked (c : Call) : Moves Walks c.job := by
  cases c with
  | send way q given slot => exact .bind (walks_call way q given slot) fun _ => .pure ()
  | prepare q => exact .bind (walks_prepare q) fun _ => .pure ()
  | createIndex i => exact walks_createIndex i
  | createIndexOn table columns unique =>
    exact .bind (walks_createIndexOn table columns unique) fun _ => .pure ()
  | dropIndex i => exact walks_dropIndex i
  | dropIndexNamed name => exact walks_dropIndex _
  | listIndexes table => exact .bind (walks_listIndexes table) fun _ => .pure ()
  | migrate => exact .bind walks_migrate fun _ => .pure ()
  | catalog => exact .bind walks_catalog fun _ => .pure ()
  | batch script => exact walks_runBatch script
  | close => exact walks_close

def asked (calls : List Call) (w : Exchange × Database) : Exchange × Database :=
  calls.foldl (fun w c => (c.job.run w).2) w

lemma walks_calls (calls : List Call) (w : Exchange × Database) : Walks w (asked calls w) := by
  induction calls generalizing w with
  | nil => exact .refl
  | cons c calls ih => exact (walks_asked c w).trans (ih _)

lemma closed_step {w w' : Exchange × Database} (h : Step w w') :
    w'.2.schema = w.2.schema ∧ (w.2.closed = true → w'.2.closed = true) := by
  cases h with
  | writer | reader | joined | refused | cleared | noted => exact ⟨rfl, id⟩
  | aborted =>
    rw [abort_eq]
    exact ⟨rfl, fun _ => rfl⟩

lemma closed_of_walks {w w' : Exchange × Database} (h : Walks w w') :
    w'.2.schema = w.2.schema ∧ (w.2.closed = true → w'.2.closed = true) := by
  induction h with
  | refl => exact ⟨rfl, id⟩
  | tail _ hstep ih =>
    obtain ⟨hschema, hclosed⟩ := closed_step hstep
    exact ⟨hschema.trans ih.1, hclosed ∘ ih.2⟩

lemma closed_of_asked {calls : List Call} (h : Call.close ∈ calls) (w : Exchange × Database) :
    (asked calls w).2.closed = true := by
  induction calls generalizing w with
  | nil => cases h
  | cons c calls ih =>
    rcases List.mem_cons.mp h with rfl | h
    · refine (closed_of_walks (walks_calls calls _)).2 ?_
      show (close w).2.2.closed = true
      rw [close_eq]
      split
      · assumption
      · rw [abort_eq]
    · exact ih h _

lemma params_createIndex (i : Index) : (Ddl.createIndex i).sql.params = [] := by
  have hcolumns : (Sql.commas (i.columns.map fun c => [.name c])).params = [] := by
    rw [Sql.commas, Sql.params_separated, List.flatMap_eq_nil_iff]
    intro s hs
    obtain ⟨c, -, rfl⟩ := List.mem_map.mp hs
    rfl
  rw [Ddl.sql, Sql.params_append]
  exact List.append_eq_nil_iff.mpr ⟨hcolumns, rfl⟩

section Refused

variable {w : Exchange × Database} {e : Failure}

lemma run_bind_of_error {α β : Type} {job : Job Database α} {next : α → Job Database β}
    (h : job.run w = (.error e, w)) : (job >>= next).run w = (.error e, w) := by
  rw [Job.run_bind, h]

variable (hclosed : w.2.closed = true)

include hclosed

lemma run_ensureOpen_closed : ensureOpen.run w = (.error (.execution .closed), w) := by
  rw [run_ensureOpen, hclosed]
  rfl

lemma run_submit_closed {α : Type} (job : Job Connection α) :
    (submit job).run w = (.error (.execution .closed), w) :=
  run_bind_of_error (run_ensureOpen_closed hclosed)

lemma run_run_closed {c : Compiled} {given : Supplied} {values : List Value}
    (hvalues : c.bind given = .ok values) (slot : Nat) :
    (run c given slot).run w = (.error (.execution .closed), w) := by
  rw [run, Job.run_ofExcept_bind_of_ok hvalues]
  exact run_bind_of_error (run_ensureOpen_closed hclosed)

lemma run_fetchAll_closed {q : Query} {c : Compiled} {given : Supplied} {values : List Value}
    (hc : q.compile = .ok c) (hvalues : c.bind given = .ok values) (into : Option RowTarget)
    (slot : Nat) : (fetchAll q into given slot).run w = (.error (.execution .closed), w) :=
  (run_compile hc).trans (run_bind_of_error (run_run_closed hclosed hvalues slot))

lemma run_call_closed (way : Way) {q : Query} {c : Compiled} {given : Supplied}
    {values : List Value} (hc : (way.asked q).compile = .ok c)
    (hvalues : c.bind given = .ok values) (slot : Nat) :
    (way.call q given slot).run w = (.error (.execution .closed), w) := by
  cases way with
  | execute =>
    exact (run_compile hc).trans (run_bind_of_error (run_run_closed hclosed hvalues slot))
  | fetchAll into => exact run_fetchAll_closed hclosed hc hvalues into slot
  | fetchOne into => exact run_bind_of_error (run_fetchAll_closed hclosed hc hvalues into slot)
  | returning into =>
    exact (run_compile hc).trans (run_bind_of_error
      (run_bind_of_error (run_fetchAll_closed hclosed rfl hvalues into slot)))

lemma run_executeDdl_closed {d : Ddl} (h : d.sql.params = []) :
    (execute (.statement (.ddl d)) .nothing).run w = (.error (.execution .closed), w) := by
  obtain ⟨c, hc, hslots⟩ : ∃ c, (Query.statement (.ddl d)).compile = .ok c ∧ c.slots = [] :=
    ⟨_, rfl, by simp [Sql.slots, h]⟩
  have hvalues : c.bind .nothing = .ok [] := by
    rw [Compiled.bind, hslots]
    rfl
  exact run_call_closed hclosed .execute hc hvalues 0

lemma run_createIndex_closed {i : Index} (h : checkIndex w.2.schema i = .ok ()) :
    (createIndex i).run w = (.error (.execution .closed), w) := by
  rw [createIndex, Job.run_subject_bind, Job.run_bind, Job.run_ofExcept, h]
  exact run_bind_of_error (run_executeDdl_closed hclosed (params_createIndex i))

lemma run_prepare_closed {q : Query} {c : Compiled} (happart : w.2.readsApart = false)
    (hc : q.compile = .ok c) : (prepare q).run w = (.error (.execution .closed), w) := by
  rw [prepare, run_compile hc, Job.run_subject_bind, happart, Bool.not_false, Bool.or_true,
    if_pos rfl]
  exact run_bind_of_error (run_submit_closed hclosed _)

lemma run_migrate_closed : migrate.run w =
    (.error (.migration (.ddlFailed "migration" "Database is closed")), w) := by
  rw [migrate, Job.run_subject_bind]
  refine run_bind_of_error ?_
  rw [Job.run_reword, run_bind_of_error (run_ensureOpen_closed hclosed)]
  rfl

lemma run_refused {call : Call} (happart : w.2.readsApart = false) (h : call.Ready w.2.schema) :
    call.job.run w = (.error call.refusal, w) := by
  cases call with
  | send way q given slot =>
    obtain ⟨c, values, hc, hvalues⟩ := h
    exact run_bind_of_error (run_call_closed hclosed way hc hvalues slot)
  | prepare q =>
    obtain ⟨c, hc⟩ := h
    exact run_bind_of_error (run_prepare_closed hclosed happart hc)
  | createIndex i => exact run_createIndex_closed hclosed h
  | createIndexOn table columns unique =>
    exact run_bind_of_error (run_bind_of_error (run_createIndex_closed hclosed h))
  | dropIndex i => exact run_bind_of_error (run_executeDdl_closed hclosed rfl)
  | dropIndexNamed name => exact run_bind_of_error (run_executeDdl_closed hclosed rfl)
  | listIndexes table => exact run_bind_of_error (run_bind_of_error (run_submit_closed hclosed _))
  | migrate => exact run_bind_of_error (run_migrate_closed hclosed)
  | catalog => exact run_bind_of_error (run_submit_closed hclosed _)
  | batch script => exact run_bind_of_error (run_ensureOpen_closed hclosed)
  | close => exact h.elim

end Refused

/-- However often it was closed, and whatever else it was asked before and after: a database that
was closed refuses each call that has nothing wrong with it, without a word to the engine, and each
of its connections has been closed once. -/
theorem refuses_of_closed {schema : Schema} {settings : DatabaseSettings} {x x₀ : Exchange}
    {d : Database} (hopen : (openMigrated schema settings).run (x, ()) = (.ok d, x₀, ()))
    {calls : List Call} (hclosed : Call.close ∈ calls) {call : Call} (hready : call.Ready schema) :
    let w := asked calls (x₀, d)
    call.job.run w = (.error call.refusal, w) ∧
      ∀ n, (x.since w.1).countP (Event.shuts n) = (x.since w.1).countP (Event.makes n) ∧
        (x.since w.1).countP (Event.makes n) ≤ 1 := by
  intro w
  have hw : w.2.closed = true := closed_of_asked hclosed (x₀, d)
  obtain ⟨writer, x₁, readsApart, -, hwalk⟩ := walks_openMigrated hopen
  have hschema : w.2.schema = schema :=
    (closed_of_walks (hwalk.trans (walks_calls calls (x₀, d)))).1
  obtain ⟨new, hevents, hledger⟩ := accounts_openMigrated hopen
  obtain ⟨later, hlater, hkept⟩ := (walks_calls calls (x₀, d)).along fun _ _ => accounts_step
  have hfinal : Ledger (new ++ later) w.1.attempts w.2 := hkept new hledger
  have hsince : x.since w.1 = new ++ later := by
    refine Exchange.since_eq ?_
    rw [hlater, hevents, List.append_assoc]
  refine ⟨run_refused hw (hfinal.closed hw).2 (hschema ▸ hready), fun n => ⟨?_, ?_⟩⟩
  · have hbalance := hfinal.balance n
    rw [(hfinal.closed hw).1, List.count_nil, Nat.add_zero] at hbalance
    rw [hsince, hbalance]
  · rw [hsince]
    exact hfinal.once n

namespace Shut

open Gone (declared)

def settings : DatabaseSettings := { path := "notes.db" }

def reading : Call :=
  let all : Select := { items := [.column (Gone.note.column Gone.key)], source := some Gone.note }
  .send (.fetchAll none) (.statement (.select all)) .nothing 0

def calls : List Call := [reading, .close, .catalog, .close]

end Shut

theorem refuses_of_closed_reading : ∃ d x,
    (openMigrated Gone.declared Shut.settings).run (Gone.obliging, ()) = (.ok d, x, ()) ∧
      Call.close ∈ Shut.calls ∧ Shut.reading.Ready Gone.declared ∧
      let w := asked Shut.calls (x, d)
      Shut.reading.job.run w = (.error (.execution .closed), w) ∧
        ∀ n, (Gone.obliging.since w.1).countP (Event.shuts n) =
            (Gone.obliging.since w.1).countP (Event.makes n) ∧
          (Gone.obliging.since w.1).countP (Event.makes n) ≤ 1 := by
  obtain ⟨d, x, hopen⟩ : ∃ d x,
      (openMigrated Gone.declared Shut.settings).run (Gone.obliging, ()) = (.ok d, x, ()) :=
    ⟨_, _, rfl⟩
  have hclosed : Call.close ∈ Shut.calls := by simp [Shut.calls]
  have hready : Shut.reading.Ready Gone.declared := ⟨_, _, rfl, rfl⟩
  exact ⟨d, x, hopen, hclosed, hready, refuses_of_closed hopen hclosed hready⟩

theorem migrate_reworded : ∃ d x e r,
    (openMigrated {} {}).run ({}, ()) = (.ok d, x, ()) ∧
      (migrate.run (asked [.close] (x, d))).1 = .error e ∧
      e ≠ .execution .closed ∧ e.report? = some r ∧ r.code = .migrationDdlFailed :=
  ⟨_, _, .migration (.ddlFailed "migration" "Database is closed"), _, rfl, rfl, nofun, rfl, rfl⟩

end Database

end Tablewright
