import Tablewright.Proofs.Database.Store

namespace Tablewright

def Statement.Writes : Statement → Prop
  | .insert _ | .update _ | .delete _ => True
  | .select _ | .ddl _ => False

namespace Query

variable {q : Query} {c : Compiled}

def Writes : Query → Prop
  | statement s => s.Writes
  | compiled c => ∃ s : Statement, s.Writes ∧ s.compile = .ok c
  | other _ => False

lemma writes_askRows (hq : q.Writes) : q.askRows.Writes := by
  cases q with
  | statement s => cases s <;> exact hq
  | compiled c => exact hq
  | other v => exact hq

lemma compile_of_writes (hq : q.Writes) (h : q.compile = .ok c) :
    c.isWrite = true ∧ c.isDdl = false := by
  obtain ⟨s, hs, hcompile⟩ : ∃ s : Statement, s.Writes ∧ s.compile = .ok c := by
    cases q with
    | statement s => exact ⟨s, hq, h⟩
    | compiled c' => exact Except.ok.inj h ▸ hq
    | other v => cases hq
  obtain ⟨sql, -, rfl⟩ := map_eq_ok_iff.mp hcompile
  cases s with
  | insert | update | delete => exact ⟨rfl, rfl⟩
  | select | ddl => cases hs

end Query

namespace Database

inductive Way where
  | execute
  | fetchAll (into : Option RowTarget)
  | fetchOne (into : Option RowTarget)
  | returning (into : Option RowTarget)

namespace Way

def Result : Way → Type
  | execute => Int
  | fetchAll _ => List Value
  | fetchOne _ => Option Value
  | returning _ => Value

def call (q : Query) (given : Supplied) (slot : Nat) : (way : Way) → Job Database way.Result
  | execute => Database.execute q given slot
  | fetchAll into => Database.fetchAll q into given slot
  | fetchOne into => Database.fetchOne q into given slot
  | returning into => Database.returning q into given slot

def asked (q : Query) : Way → Query
  | returning _ => q.askRows
  | _ => q

def mapped (d : Database) (c : Compiled) (result : ResultSet) (into : Option RowTarget) :
    Except Failure (List Value) :=
  (mapRows d.schema d.shapes result.columns result.rows into c.columns).1

def needed (c : Compiled) : Option Value → Except Failure Value
  | some row => .ok row
  | none => .error (.execution (.noRows c.sql))

def made (d : Database) (c : Compiled) (result : ResultSet) :
    (way : Way) → Except Failure way.Result
  | execute => .ok result.count
  | fetchAll into => mapped d c result into
  | fetchOne into => (mapped d c result into).map List.head?
  | returning into => ((mapped d c result into).map List.head?).bind (needed c)

end Way

variable {α β : Type} {q : Query} {c : Compiled} {given : Supplied} {slot : Nat}
  {w : Exchange × Database}

structure Completes (ran : Job Database ResultSet)
    (make : Database → ResultSet → Except Failure α) (job : Job Database α)
    (w : Exchange × Database) : Prop where
  exchange : (job.run w).2.1 = (ran.run w).2.1
  outcome : (job.run w).1 = (ran.run w).1.bind (make (ran.run w).2.2)

variable {ran : Job Database ResultSet} {make : Database → ResultSet → Except Failure α}
  {job : Job Database α}

lemma Completes.bind {next : α → Job Database β} {f : α → Except Failure β}
    (h : Completes ran make job w) (hnext : ∀ a w, (next a).run w = (f a, w)) :
    Completes ran (fun d result => (make d result).bind f) (job >>= next) w := by
  obtain ⟨hx, hr⟩ := h
  have hassoc : (ran.run w).1.bind (fun result => (make (ran.run w).2.2 result).bind f) =
      (job.run w).1.bind f := by
    rw [hr]
    cases (ran.run w).1 <;> rfl
  refine ⟨?_, ?_⟩
  · rw [Job.run_bind, ← hx]
    rcases job.run w with ⟨e | a, w'⟩
    · rfl
    · simp only [hnext]
  · rw [Job.run_bind, hassoc]
    rcases job.run w with ⟨e | a, w'⟩
    · rfl
    · simp only [hnext, Except.bind]

lemma Completes.map (f : α → β) (h : Completes ran make job w) :
    Completes ran (fun d result => (make d result).map f) (do return f (← job)) w := by
  have hmap (r : Except Failure α) : r.map f = r.bind fun a => .ok (f a) := by
    cases r <;> rfl
  have hbind : Completes ran _ (do return f (← job)) w :=
    h.bind (f := fun a => .ok (f a)) fun _ _ => rfl
  simpa only [hmap] using hbind

lemma run_compile {next : Compiled → Job Database α} (h : q.compile = .ok c) :
    (compile q >>= next).run w = (next c).run w := by
  rw [compile, Job.run_bind, Job.run_ofExcept, h]
  rfl

lemma run_compile_of_error {next : Compiled → Job Database α} {e : Failure}
    (h : q.compile = .error e) : (compile q >>= next).run w = (.error e, w) := by
  rw [compile, Job.run_bind, Job.run_ofExcept, h]
  rfl

lemma Completes.of_compile {next : Compiled → Job Database α} (hc : q.compile = .ok c)
    (h : Completes ran make (next c) w) : Completes ran make (compile q >>= next) w :=
  ⟨(run_compile hc).symm ▸ h.exchange, (run_compile hc).symm ▸ h.outcome⟩

lemma completes_then {ran : Job Database ResultSet} {next : ResultSet → Job Database α}
    (h : ∀ result w, ((next result).run w).2.1 = w.1 ∧
      ((next result).run w).1 = make w.2 result) : Completes ran make (ran >>= next) w := by
  suffices hrun : _ ∧ _ from ⟨hrun.1, hrun.2⟩
  rw [Job.run_bind]
  rcases ran.run w with ⟨e | result, w'⟩
  · exact ⟨rfl, rfl⟩
  · exact h result w'

lemma completes_execute (hc : q.compile = .ok c) :
    Completes (run c given slot) (fun _ result => .ok result.count) (execute q given slot) w :=
  .of_compile hc (completes_then fun _ _ => ⟨rfl, rfl⟩)

lemma completes_fetchAll (hc : q.compile = .ok c) (into : Option RowTarget) :
    Completes (run c given slot) (fun d result => Way.mapped d c result into)
      (fetchAll q into given slot) w := by
  refine .of_compile hc (completes_then fun result w => ?_)
  obtain ⟨x, d⟩ := w
  simp only [Job.run_bind, Job.run_get, Job.run_set, Job.run_ofExcept, true_and]
  rw [Way.mapped]
  cases (mapRows d.schema d.shapes result.columns result.rows into c.columns).1 <;> rfl

lemma completes_fetchOne (hc : q.compile = .ok c) (into : Option RowTarget) :
    Completes (run c given slot) (fun d result => (Way.mapped d c result into).map List.head?)
      (fetchOne q into given slot) w :=
  (completes_fetchAll hc into).map List.head?

lemma completes_returning (hc : q.askRows.compile = .ok c) (into : Option RowTarget) :
    Completes (run c given slot)
      (fun d result => ((Way.mapped d c result into).map List.head?).bind (Way.needed c))
      (returning q into given slot) w := by
  refine .of_compile hc (.bind (completes_fetchOne rfl into) fun row w => ?_)
  cases row with
  | some row => rfl
  | none => rfl

lemma completes_call (way : Way) (hc : (way.asked q).compile = .ok c) :
    Completes (run c given slot) (fun d result => way.made d c result)
      (way.call q given slot) w := by
  cases way with
  | execute => exact completes_execute hc
  | fetchAll into => exact completes_fetchAll hc into
  | fetchOne into => exact completes_fetchOne hc into
  | returning into => exact completes_returning hc into

lemma run_call_of_error (way : Way) {e : Failure} (h : (way.asked q).compile = .error e) :
    (way.call q given slot).run w = (.error e, w) := by
  cases way with
  | execute => exact run_compile_of_error h
  | fetchAll into => exact run_compile_of_error h
  | fetchOne into =>
    have hall : (fetchAll q into given slot).run w = (.error e, w) := run_compile_of_error h
    have hone : (fetchOne q into given slot).run w = _ := Job.run_bind _ _ w
    rw [hall] at hone
    exact hone
  | returning into => exact run_compile_of_error h

/-- What a write came to: with a result all of it is there to stay, without one nothing. -/
def Stored (c : Compiled) (given : Supplied) (before : List Executed)
    (r : Except Failure ResultSet) (st : Store) : Prop :=
  match r with
  | .error _ => st = .quiet before
  | .ok _ => ∃ values, c.bind given = .ok values ∧ st = .quiet (before ++ [⟨c.sql, values⟩])

structure Written (c : Compiled) (given : Supplied) (w w' : Exchange × Database)
    (r : Except Failure ResultSet) : Prop where
  schema : w'.2.schema = w.2.schema
  shapes : w'.2.shapes = w.2.shapes
  stored : ∀ before st, Store.Runs (.quiet before) (w.1.since w'.1) st → Stored c given before r st

lemma Written.of_error (e : Failure) : Written c given w w (.error e) := by
  refine ⟨rfl, rfl, fun before st hst => ?_⟩
  rwa [Exchange.since_eq (List.append_nil _).symm] at hst

lemma written_onWriter {values : List Value} (hvalues : c.bind given = .ok values)
    (hw : w.2.Sound) :
    Written c given w ((onWriter (Connection.write c (.sequence values))).run w).2
      ((onWriter (Connection.write c (.sequence values))).run w).1 := by
  refine ⟨rfl, rfl, fun before st hst => ?_⟩
  let task : Connection.Task := .write c (.sequence values)
  obtain ⟨-, new, hevents, hnew⟩ := Connection.Leaves.on_store (w := (w.1, w.2.writer))
    (fun c => Connection.leaves_job (c := c) task)
    (fun w => (Connection.works_write c _ w).located) hw.writer
  obtain ⟨⟨committed, pending⟩, hs, rfl⟩ := hnew before st (Exchange.since_eq hevents ▸ hst)
  obtain ⟨hclosed, hfailed, hreturned⟩ := hs
  obtain rfl : pending = none := hclosed
  rw [onWriter, Job.run_within]
  rcases hr : (Connection.write c (.sequence values)).run (w.1, w.2.writer) with ⟨e | result, w'⟩
  · have hsame : committed = before := hfailed e (congrArg Prod.fst hr)
    rw [hsame]
    exact Store.withSession_quiet _ _ _
  · -- the connection binds the values once more, as a sequence, and finds the same ones
    obtain ⟨done, ⟨values', hvalues', rfl⟩, hcommitted⟩ := hreturned result (congrArg Prod.fst hr)
    have hsame : values = values' :=
      Except.ok.inj ((Compiled.bind_sequence hvalues).symm.trans hvalues')
    have hadded : committed = before ++ [⟨c.sql, values⟩] := hsame ▸ hcommitted
    rw [hadded]
    exact ⟨values, hvalues, Store.withSession_quiet _ _ _⟩

lemma run_ensureOpen (w : Exchange × Database) :
    ensureOpen.run w = (if w.2.closed then .error (.execution .closed) else .ok (), w) := by
  rw [ensureOpen, Job.run_bind, Job.run_subject]
  dsimp only
  cases w.2.closed <;> rfl

lemma run_write (hwrite : c.isWrite = true) (hddl : c.isDdl = false) :
    (run c given slot).run w =
      match c.bind given with
      | .error e => (.error e, w)
      | .ok values =>
        if w.2.closed then (.error (.execution .closed), w)
        else (onWriter (Connection.write c (.sequence values))).run w := by
  rw [run, Job.run_bind, Job.run_ofExcept]
  cases c.bind given with
  | error e => rfl
  | ok values =>
    simp only [Except.mapError, Job.run_bind, run_ensureOpen]
    cases w.2.closed with
    | true => rfl
    | false =>
      simp only [hwrite, hddl, if_true, Bool.false_eq_true, if_false, Job.run_bind]
      rcases (onWriter (Connection.write c (.sequence values))).run w with ⟨e | result, w'⟩
      · rfl
      · rfl

lemma written_run (hwrite : c.isWrite = true) (hddl : c.isDdl = false) (hw : w.2.Sound) :
    Written c given w ((run c given slot).run w).2 ((run c given slot).run w).1 := by
  rw [run_write hwrite hddl]
  cases hvalues : c.bind given with
  | error e => exact .of_error e
  | ok values =>
    cases w.2.closed with
    | true => exact .of_error _
    | false => exact written_onWriter hvalues hw

lemma Way.compile_of_writes {way : Way} (hq : q.Writes) (h : (way.asked q).compile = .ok c) :
    c.isWrite = true ∧ c.isDdl = false := by
  refine Query.compile_of_writes ?_ h
  cases way with
  | execute | fetchAll | fetchOne => exact hq
  | returning => exact Query.writes_askRows hq

lemma Way.made_congr {d d' : Database} (hschema : d'.schema = d.schema)
    (hshapes : d'.shapes = d.shapes) (result : ResultSet) (way : Way) :
    way.made d' c result = way.made d c result := by
  have hmapped (into : Option RowTarget) : mapped d' c result into = mapped d c result into := by
    rw [mapped, mapped, hschema, hshapes]
  cases way with
  | execute => rfl
  | fetchAll into => exact hmapped into
  | fetchOne into => exact congrArg (Except.map List.head?) (hmapped into)
  | returning into =>
    exact congrArg (fun rows => (Except.map List.head? rows).bind (needed c)) (hmapped into)

lemma stored_call (way : Way) {before : List Executed} {st : Store} (hq : q.Writes)
    (hcompile : (way.asked q).compile = .ok c) (hw : w.2.Sound)
    (hst : Store.Runs (.quiet before) (w.1.since ((way.call q given slot).run w).2.1) st) :
    Stored c given before ((run c given slot).run w).1 st := by
  obtain ⟨hwrite, hddl⟩ := Way.compile_of_writes hq hcompile
  rw [(completes_call way hcompile).exchange] at hst
  exact (written_run hwrite hddl hw).stored before st hst

lemma made_call (way : Way) (hq : q.Writes) (hcompile : (way.asked q).compile = .ok c)
    (hw : w.2.Sound) : ((way.call q given slot).run w).1 =
      ((run c given slot).run w).1.bind fun result => way.made w.2 c result := by
  obtain ⟨hwrite, hddl⟩ := Way.compile_of_writes hq hcompile
  have hwritten : Written c given w ((run c given slot).run w).2 _ := written_run hwrite hddl hw
  have hmade (result : ResultSet) :=
    Way.made_congr (c := c) hwritten.schema hwritten.shapes result way
  rw [(completes_call way hcompile).outcome, funext hmade]

/-- A write that raises has left what was committed as it was, unless it had already succeeded: then
what raised is what was made of its result, and its own statement alone has been committed. This
holds of every database that was opened, whatever it has done since and whatever the engine
answers. -/
theorem call_of_error {schema : Schema} {settings : DatabaseSettings} {x x₀ : Exchange}
    {d : Database} (hopen : (openMigrated schema settings).run (x, ()) = (.ok d, x₀, ()))
    (tasks : List Task) (hq : q.Writes) (way : Way) (given : Supplied) (slot : Nat)
    {before : List Executed} {st st' : Store} {e : Failure} :
    let w := serve tasks (x₀, d)
    Store.Runs (.quiet before) (x.since w.1) st →
    Store.Runs st (w.1.since ((way.call q given slot).run w).2.1) st' →
    ((way.call q given slot).run w).1 = .error e →
    st'.committed = st.committed ∨
      ∃ c values result, (way.asked q).compile = .ok c ∧ c.bind given = .ok values ∧
        ((run c given slot).run w).1 = .ok result ∧ way.made w.2 c result = .error e ∧
        st'.committed = st.committed ++ [⟨c.sql, values⟩] := by
  intro w hbefore hcall hraised
  obtain ⟨hsound, before', rfl⟩ := serve_quiet hopen tasks hbefore
  cases hcompile : (way.asked q).compile with
  | error e' =>
    -- nothing was asked of the engine
    rw [run_call_of_error way hcompile, Exchange.since_eq (List.append_nil _).symm] at hcall
    exact Or.inl (congrArg Store.committed hcall)
  | ok c =>
    have hstored := stored_call way hq hcompile hsound hcall
    rw [made_call way hq hcompile hsound] at hraised
    rcases hr : ((run c given slot).run w).1 with e' | result
    · rw [hr] at hstored
      exact Or.inl (congrArg Store.committed hstored)
    · rw [hr] at hstored hraised
      obtain ⟨values, hvalues, rfl⟩ := hstored
      exact Or.inr ⟨c, values, result, rfl, hvalues, hr, hraised, rfl⟩

namespace Gone

def key : Column := { name := "id", kind := .integer, primaryKey := true }

def note : Table := ⟨"note", [key]⟩

def declared : Schema := .ofDescriptions [note] []

def adding : Query := .statement (.insert
  { table := note, assignments := [(note.column key, .param { value := some (.int 1) })] })

def answering (reply : Reply) : Exchange where
  replies
    | .execute => [reply]
    | _ => []
  inspections := [.tables
    [{ name := "note", columns := [{ name := "id", type := .integer, keyPosition := 1 }] }]]

def refusing : Exchange := answering (.failed "UNIQUE constraint failed: note.id")

def obliging : Exchange := answering (.rows ["id"] [[.int 1]])

def line : Model := .mk 0 "Gone" (some "gone") [{ name := "id", type := .scalar .whole }]

def unfit : Failure := .shape (.invalidModel "Gone" "bound to undeclared table 'gone'")

end Gone

theorem call_of_error_refused : ∃ d x st st' e,
    (openMigrated Gone.declared {}).run (Gone.refusing, ()) = (.ok d, x, ()) ∧
      Store.Runs (.quiet []) (Gone.refusing.since x) st ∧
      Store.Runs st (x.since ((execute Gone.adding .nothing).run (x, d)).2.1) st' ∧
      ((execute Gone.adding .nothing).run (x, d)).1 = .error e ∧
      st'.committed = st.committed := by
  obtain ⟨d, x, e, hopen, hraised⟩ : ∃ d x e,
      (openMigrated Gone.declared {}).run (Gone.refusing, ()) = (.ok d, x, ()) ∧
        ((execute Gone.adding .nothing).run (x, d)).1 = .error e := ⟨_, _, _, rfl, rfl⟩
  obtain ⟨st, hst⟩ := Store.exists_runs (.quiet []) (Gone.refusing.since x)
  obtain ⟨st', hst'⟩ := Store.exists_runs st
    (x.since ((execute Gone.adding .nothing).run (x, d)).2.1)
  refine ⟨d, x, st, st', e, hopen, hst, hst', hraised, ?_⟩
  obtain hsame | ⟨c, values, result, -, -, -, hmade, -⟩ :=
    call_of_error hopen [] (q := Gone.adding) trivial .execute .nothing 0 hst hst' hraised
  · exact hsame
  · cases hmade

/-- The row is there to stay before it is found that no model of that table can be mapped. -/
theorem returning_committed : ∃ d x st st',
    (openMigrated Gone.declared {}).run (Gone.obliging, ()) = (.ok d, x, ()) ∧
      Store.Runs (.quiet []) (Gone.obliging.since x) st ∧
      Store.Runs st
        (x.since ((returning Gone.adding (some (.model Gone.line)) .nothing).run (x, d)).2.1) st' ∧
      ((returning Gone.adding (some (.model Gone.line)) .nothing).run (x, d)).1 =
        .error Gone.unfit ∧
      st'.committed ≠ st.committed := by
  obtain ⟨c, hc⟩ : ∃ c, Gone.adding.askRows.compile = .ok c := ⟨_, rfl⟩
  obtain ⟨d, x, result, hopen, hraised, hran⟩ : ∃ d x result,
      (openMigrated Gone.declared {}).run (Gone.obliging, ()) = (.ok d, x, ()) ∧
        ((returning Gone.adding (some (.model Gone.line)) .nothing).run (x, d)).1 =
          .error Gone.unfit ∧
        ((compile Gone.adding.askRows >>= fun c => run c .nothing).run (x, d)).1 = .ok result :=
    ⟨_, _, _, rfl, rfl, rfl⟩
  obtain ⟨st, hst⟩ := Store.exists_runs (.quiet []) (Gone.obliging.since x)
  obtain ⟨st', hst'⟩ := Store.exists_runs st
    (x.since ((returning Gone.adding (some (.model Gone.line)) .nothing).run (x, d)).2.1)
  refine ⟨d, x, st, st', hopen, hst, hst', hraised, ?_⟩
  obtain ⟨hsound, before, rfl⟩ := serve_quiet hopen [] hst
  have hstored : Stored c .nothing before ((run c .nothing).run (x, d)).1 st' :=
    stored_call (q := Gone.adding) (.returning _) trivial hc hsound hst'
  rw [run_compile hc] at hran
  rw [hran] at hstored
  obtain ⟨values, -, rfl⟩ := hstored
  exact fun hsame => absurd (congrArg List.length hsame) (by simp [Store.quiet])

end Database

end Tablewright
