import Mathlib.Order.Defs.Unbundled
import Mathlib.Tactic.Lemma
import Tablewright.Engine.Connection
import Tablewright.Proofs.Outcome

namespace Tablewright

variable {σ τ α β : Type}

namespace Exchange

variable (x : Exchange) (r : Request) (event : Bool → Event)

def recordAll (es : List Event) : Exchange := { x with events := x.events ++ es }

@[simp] lemma recordAll_nil : x.recordAll [] = x := by rw [recordAll, List.append_nil]

@[simp] lemma recordAll_recordAll (es fs : List Event) :
    (x.recordAll es).recordAll fs = x.recordAll (es ++ fs) := by
  simp only [recordAll, List.append_assoc]

lemma ask_events :
    (x.ask r event).2.events = x.events ++ [event (x.ask r event).1.failure?.isNone] := by
  simp only [ask, answer]
  split <;> rfl

lemma exists_ask_eq :
    ∃ replies events, (x.ask r event).2 = { x with replies := replies, events := events } := by
  simp only [ask, answer]
  split <;> exact ⟨_, _, rfl⟩

lemma ask_lookups : (x.ask r event).2.lookups = x.lookups := by
  obtain ⟨_, _, h⟩ := x.exists_ask_eq r event
  rw [h]

lemma ask_attempts : (x.ask r event).2.attempts = x.attempts := by
  obtain ⟨_, _, h⟩ := x.exists_ask_eq r event
  rw [h]

lemma ask_inspections : (x.ask r event).2.inspections = x.inspections := by
  obtain ⟨_, _, h⟩ := x.exists_ask_eq r event
  rw [h]

lemma ask_clock : (x.ask r event).2.clock = x.clock := by
  obtain ⟨_, _, h⟩ := x.exists_ask_eq r event
  rw [h]

lemma inspect_events (n : Nat) :
    (x.inspect n).2.events = x.events ++ [.inspected n (match (x.inspect n).1 with
      | .tables _ => true
      | .failed _ => false)] := by
  simp only [inspect]
  split <;> rfl

lemma inspect_lookups (n : Nat) : (x.inspect n).2.lookups = x.lookups := rfl

end Exchange

namespace Job

lemma run_bind (job : Job σ α) (next : α → Job σ β) (w : Exchange × σ) :
    (job >>= next).run w =
      match job.run w with
      | (.ok a, w') => (next a).run w'
      | (.error e, w') => (.error e, w') := by
  simp only [bind, ExceptT.run, ExceptT.bind, ExceptT.mk, StateT.bind]
  rcases job w with ⟨_ | _, w'⟩ <;> rfl

lemma run_bind_of_ok {job : Job σ α} {next : α → Job σ β} {w w' : Exchange × σ} {a : α}
    (h : job.run w = (.ok a, w')) : (job >>= next).run w = (next a).run w' := by
  rw [run_bind, h]

lemma run_bind_eq_ok {job : Job σ α} {next : α → Job σ β} {w w' : Exchange × σ} {b : β}
    (h : (job >>= next).run w = (.ok b, w')) :
    ∃ a w₁, job.run w = (.ok a, w₁) ∧ (next a).run w₁ = (.ok b, w') := by
  rw [run_bind] at h
  rcases hjob : job.run w with ⟨e | a, w₁⟩
  · rw [hjob] at h
    cases congrArg Prod.fst h
  · rw [hjob] at h
    exact ⟨a, w₁, rfl, h⟩

lemma exists_run_eq_ok {job : Job σ α} {w : Exchange × σ} {a : α}
    (h : (job.run w).1.toOption = some a) : ∃ w', job.run w = (.ok a, w') := by
  rcases hrun : job.run w with ⟨e | b, w'⟩
  · rw [hrun] at h
    cases h
  · rw [hrun] at h
    obtain rfl := Option.some.inj h
    exact ⟨w', rfl⟩

lemma run_get (w : Exchange × σ) : (get : Job σ (Exchange × σ)).run w = (.ok w, w) := rfl

lemma run_set (w' w : Exchange × σ) : (set w' : Job σ PUnit).run w = (.ok ⟨⟩, w') := rfl

lemma run_subject (w : Exchange × σ) : (subject : Job σ σ).run w = (.ok w.2, w) := rfl

lemma run_subject_bind (next : σ → Job σ α) (w : Exchange × σ) :
    (subject >>= next).run w = (next w.2).run w := rfl

lemma run_sure (step : Sure σ α) (w : Exchange × σ) :
    (sure step).run w = (.ok (step w).1, (step w).2) := rfl

lemma run_ensuring (job : Job σ α) (after : Sure σ Unit) (w : Exchange × σ) :
    (ensuring job after).run w = ((job.run w).1, (after (job.run w).2).2) := rfl

lemma run_undoing (job : Job σ α) (undo : Sure σ Unit) (w : Exchange × σ) :
    (undoing job undo).run w =
      match job.run w with
      | (.ok a, w') => (.ok a, w')
      | (.error e, w') => (.error e, (undo w').2) := by
  simp only [undoing, bind, ExceptT.run, ExceptT.mk, StateT.bind]
  rcases job w with ⟨_ | _, w'⟩ <;> rfl

lemma run_undoing_eq_ok {job : Job σ α} {undo : Sure σ Unit} {w w' : Exchange × σ} {a : α}
    (h : (undoing job undo).run w = (.ok a, w')) : job.run w = (.ok a, w') := by
  rw [run_undoing] at h
  rcases hrun : job.run w with ⟨e | b, w₁⟩
  · rw [hrun] at h
    cases congrArg Prod.fst h
  · rw [hrun] at h
    exact h

lemma run_reword (f : Failure → Failure) (job : Job σ α) (w : Exchange × σ) :
    (reword f job).run w = ((job.run w).1.mapError f, (job.run w).2) := rfl

lemma run_ofExcept {ε : Type} (wrap : ε → Failure) (r : Except ε α) (w : Exchange × σ) :
    (ofExcept wrap r : Job σ α).run w = (r.mapError wrap, w) := by
  cases r <;> rfl

lemma run_ofExcept_bind_of_ok {ε : Type} {r : Except ε α} {a : α} (h : r = .ok a)
    (wrap : ε → Failure) (next : α → Job σ β) (w : Exchange × σ) :
    (ofExcept wrap r >>= next).run w = (next a).run w := by
  rw [run_bind, run_ofExcept, h]
  rfl

lemma run_ofExcept_bind_eq_ok {ε : Type} {wrap : ε → Failure} {r : Except ε α}
    {next : α → Job σ β} {w w' : Exchange × σ} {b : β}
    (h : (ofExcept wrap r >>= next).run w = (.ok b, w')) :
    ∃ a, r = .ok a ∧ (next a).run w = (.ok b, w') := by
  rw [run_bind, run_ofExcept] at h
  cases r with
  | error e => cases congrArg Prod.fst h
  | ok a => exact ⟨a, rfl, h⟩

lemma run_within (get : τ → σ) (put : σ → τ → τ) (job : Job σ α) (w : Exchange × τ) :
    (within get put job).run w =
      ((job.run (w.1, get w.2)).1, (job.run (w.1, get w.2)).2.1,
        put (job.run (w.1, get w.2)).2.2 w.2) := rfl

section Along

variable {R : Exchange × σ → Exchange × σ → Prop} {w : Exchange × σ}

/-- Whatever the engine answers, the job moves what it works on along the relation. -/
def Moves (R : Exchange × σ → Exchange × σ → Prop) (job : Job σ α) : Prop :=
  ∀ w, R w (job.run w).2

namespace Moves

lemma reword (f : Failure → Failure) {job : Job σ α} (h : Moves R job) :
    Moves R (Job.reword f job) := h

lemma get_bind {next : Exchange × σ → Job σ α} (h : ∀ w, R w ((next w).run w).2) :
    Moves R (get >>= next) := h

lemma subject_bind {next : σ → Job σ α} (h : ∀ w : Exchange × σ, R w ((next w.2).run w).2) :
    Moves R (Job.subject >>= next) := h

end Moves

variable [IsPreorder (Exchange × σ) R]

lemma move_bind {job : Job σ α} {next : α → Job σ β} (h : R w (job.run w).2)
    (hnext : ∀ a, Moves R (next a)) : R w ((job >>= next).run w).2 := by
  rw [run_bind]
  rcases hrun : job.run w with ⟨e | a, w'⟩
  · rw [hrun] at h
    exact h
  · rw [hrun] at h
    exact trans_of R h (hnext a w')

namespace Moves

lemma pure (a : α) : Moves R (Pure.pure a : Job σ α) := fun w => refl_of R w

lemma throw (e : Failure) : Moves R (MonadExcept.throw e : Job σ α) := fun w => refl_of R w

lemma ofExcept {ε : Type} (wrap : ε → Failure) (r : Except ε α) :
    Moves R (Job.ofExcept wrap r : Job σ α) := by
  intro w
  rw [run_ofExcept]
  exact refl_of R w

lemma bind {job : Job σ α} {next : α → Job σ β} (h : Moves R job) (hnext : ∀ a, Moves R (next a)) :
    Moves R (job >>= next) := fun w => move_bind (h w) hnext

lemma undoing {job : Job σ α} {undo : Sure σ Unit} (h : Moves R job)
    (hundo : ∀ w, R w (undo w).2) : Moves R (Job.undoing job undo) := by
  intro w
  have hjob := h w
  rw [run_undoing]
  rcases hrun : job.run w with ⟨e | a, w'⟩
  · rw [hrun] at hjob
    exact trans_of R hjob (hundo w')
  · rw [hrun] at hjob
    exact hjob

lemma ensuring {job : Job σ α} {after : Sure σ Unit} (h : Moves R job)
    (hafter : ∀ w, R w (after w).2) : Moves R (Job.ensuring job after) :=
  fun w => trans_of R (h w) (hafter _)

end Moves

end Along

end Job

lemma Connection.run_connect (role : Role) (settings : DatabaseSettings) (x : Exchange) :
    (connect role settings).run (x, ()) =
      let asked := ({ x with attempts := x.attempts + 1 } : Exchange).ask .connect
        (.connected (x.attempts + 1))
      match asked.1.failure? with
      | some message => (.error (engineError "connect" message false), asked.2, ())
      | none => (.ok { role, settings, number := x.attempts + 1, generation := asked.2.opened + 1 },
          { asked.2 with opened := asked.2.opened + 1 }, ()) := by
  simp only [connect, Job.run_bind, Job.run_get, Job.run_set, Job.run_sure, Job.ask]
  generalize Exchange.ask _ _ _ = asked
  cases asked.1.failure? <;> rfl

lemma Connection.exists_connect_eq (role : Role) (settings : DatabaseSettings) (x : Exchange) :
    ∃ replies events opened, ((connect role settings).run (x, ())).2.1 =
      { x with
        replies := replies
        events := events
        opened := opened
        attempts := x.attempts + 1 } := by
  obtain ⟨replies, events, h⟩ := ({ x with attempts := x.attempts + 1 } : Exchange).exists_ask_eq
    .connect (.connected (x.attempts + 1))
  rw [run_connect]
  dsimp only
  split
  · exact ⟨replies, events, x.opened, h⟩
  · exact ⟨replies, events, x.opened + 1, by rw [h]⟩

lemma Connection.connect_lookups (role : Role) (settings : DatabaseSettings) (x : Exchange) :
    ((connect role settings).run (x, ())).2.1.lookups = x.lookups := by
  obtain ⟨_, _, _, h⟩ := exists_connect_eq role settings x
  rw [h]

lemma Connection.connect_attempts (role : Role) (settings : DatabaseSettings) (x : Exchange) :
    ((connect role settings).run (x, ())).2.1.attempts = x.attempts + 1 := by
  obtain ⟨_, _, _, h⟩ := exists_connect_eq role settings x
  rw [h]

lemma Connection.connect_inspections (role : Role) (settings : DatabaseSettings) (x : Exchange) :
    ((connect role settings).run (x, ())).2.1.inspections = x.inspections := by
  obtain ⟨_, _, _, h⟩ := exists_connect_eq role settings x
  rw [h]

lemma Connection.connect_events (role : Role) (settings : DatabaseSettings) (x : Exchange) :
    ∃ n ok, ((connect role settings).run (x, ())).2.1.events = x.events ++ [.connected n ok] := by
  have h := Exchange.ask_events { x with attempts := x.attempts + 1 } .connect
    (.connected (x.attempts + 1))
  rw [run_connect]
  dsimp only
  split
  · exact ⟨_, _, h⟩
  · exact ⟨_, _, h⟩

lemma Connection.connect_eq_ok {role : Role} {settings : DatabaseSettings} {x x' : Exchange}
    {c : Connection} (h : (connect role settings).run (x, ()) = (.ok c, x', ())) :
    c.cache.handles = [] ∧ x'.lookups = x.lookups ∧
      x'.events = x.events ++ [.connected c.number true] := by
  let y : Exchange := { x with attempts := x.attempts + 1 }
  have hlookups := y.ask_lookups .connect (.connected y.attempts)
  have hevents := y.ask_events .connect (.connected y.attempts)
  rw [run_connect] at h
  simp only at h
  split at h
  · cases congrArg Prod.fst h
  · next hreply =>
    obtain ⟨hc, hx⟩ := Prod.mk.inj h
    obtain rfl := Except.ok.inj hc
    obtain rfl := (Prod.mk.inj hx).1
    rw [hreply] at hevents
    exact ⟨rfl, hlookups, hevents⟩

lemma Connection.connect_number {role : Role} {settings : DatabaseSettings} {x x' : Exchange}
    {c : Connection} (h : (connect role settings).run (x, ()) = (.ok c, x', ())) :
    c.number = x.attempts + 1 ∧ c.closed = false := by
  rw [run_connect] at h
  simp only at h
  split at h
  · cases congrArg Prod.fst h
  · obtain rfl := Except.ok.inj (congrArg Prod.fst h)
    exact ⟨rfl, rfl⟩

lemma Connection.connect_eq_error {role : Role} {settings : DatabaseSettings} {x x' : Exchange}
    {e : Failure} (h : (connect role settings).run (x, ()) = (.error e, x', ())) :
    x'.events = x.events ++ [.connected (x.attempts + 1) false] := by
  let y : Exchange := { x with attempts := x.attempts + 1 }
  have hevents := y.ask_events .connect (.connected y.attempts)
  rw [run_connect] at h
  simp only at h
  split at h
  · next hreply =>
    obtain rfl := (Prod.mk.inj (Prod.mk.inj h).2).1
    rw [hreply] at hevents
    exact hevents
  · cases congrArg Prod.fst h

lemma Connection.run_readCatalog (x : Exchange) (c : Connection) :
    readCatalog.run (x, c) =
      (match (x.inspect c.number).1 with
        | .tables tables => .ok (.ofInspected tables)
        | .failed message => .error (engineError "catalog" message false),
        (x.inspect c.number).2, c) := by
  simp only [readCatalog, Job.run_bind, Job.run_get, Job.run_set]
  cases (x.inspect c.number).1 <;> rfl

lemma Connection.run_readCatalogOnly (x : Exchange) (c : Connection) :
    readCatalogOnly.run (x, c) =
      ((readCatalog.run (x, c)).1, (x.inspect c.number).2.record (.rolledBack c.number), c) := by
  rw [readCatalogOnly, Job.run_ensuring, run_readCatalog]
  rfl

lemma Connection.run_execute (h : Handle String) (values : List Value) (x : Exchange)
    (c : Connection) :
    (execute h values).run (x, c) =
      let asked := x.ask (requestOf h.sql) (.executed c.number h.sql values)
      (match asked.1 with
        | .done count => .ok ⟨[], [], count⟩
        | .rows columns rows => .ok ⟨columns, rows, rows.length⟩
        | .failed message => .error (engineError h.sql message
          (Lock.isLockText (x.wording.text message h.sql values))), asked.2, c) := by
  simp only [execute, Job.run_bind, Job.run_get, Job.run_sure, Job.ask]
  generalize Exchange.ask _ _ _ = asked
  cases asked.1 <;> rfl

lemma Connection.run_runScript (script : String) (x : Exchange) (c : Connection) :
    (runScript script).run (x, c) =
      let asked := x.ask .script (.ranScript c.number script)
      match asked.1.failure? with
      | some message => (.error (engineError script message false), asked.2, c)
      | none => (.ok (), asked.2, c) := by
  simp only [runScript, Job.run_bind, Job.run_subject, Job.run_sure, Job.ask]
  generalize Exchange.ask _ _ _ = asked
  cases asked.1.failure? <;> rfl

lemma Connection.run_commit (x : Exchange) (c : Connection) :
    commit.run (x, c) =
      let asked := x.ask .commit (.committed c.number)
      match asked.1.failure? with
      | some message => (.error (engineError "COMMIT" message false), asked.2, c)
      | none => (.ok (), asked.2, c) := by
  simp only [commit, Job.run_bind, Job.run_subject, Job.run_sure, Job.ask]
  generalize Exchange.ask _ _ _ = asked
  cases asked.1.failure? <;> rfl

lemma Connection.run_tryBegin (x : Exchange) (c : Connection) :
    tryBegin.run (x, c) =
      let asked := x.ask .begin (.executed c.number beginText [])
      match asked.1.failure? with
      | none => (.ok none, asked.2, c)
      | some message =>
        (.ok (some (message, Lock.isLockText (x.wording.text message beginText []))),
          asked.2.record (.rolledBack c.number), c) := by
  simp only [tryBegin, Job.run_bind, Job.run_get, Job.run_sure, Job.ask]
  generalize Exchange.ask _ _ _ = asked
  cases asked.1.failure? <;> rfl

lemma Connection.run_wait (attempt : Nat) (x : Exchange) (c : Connection) :
    (wait attempt).run (x, c) =
      match c.settings.backoff attempt with
      | .error f => (.error (.fault f), x, c)
      | .ok delay =>
        match x.clock delay with
        | some f => (.error (.fault f), x, c)
        | none => (.ok (), x.record (.slept delay), c) := by
  simp only [wait, Job.run_bind, Job.run_subject, Job.run_ofExcept, Job.run_get]
  cases c.settings.backoff attempt with
  | error f => rfl
  | ok delay =>
    have hdelay : (Except.ok delay : Except Fault Double).mapError Failure.fault = .ok delay := rfl
    rw [hdelay]
    dsimp only
    cases x.clock delay <;> rfl

lemma mem_of_lookup {α β : Type} [BEq α] [LawfulBEq α] {a : α} {b : β} {entries : List (α × β)}
    (h : entries.lookup a = some b) : (a, b) ∈ entries := by
  obtain ⟨before, after, rfl, -⟩ := List.lookup_eq_some_iff.mp h
  exact List.mem_append_right before List.mem_cons_self

lemma Connection.run_prepared (sql : String) (x : Exchange) (c : Connection) :
    (prepared sql).run (x, c) =
      match c.cache.handles.lookup sql with
      | some h => (.ok h, x.noteLookup c.number sql true,
          { c with cache := { c.cache with hits := c.cache.hits + 1 } })
      | none => (.ok ⟨sql, c.generation⟩, x.noteLookup c.number sql false,
          { c with cache :=
            { c.cache with
              handles := c.cache.handles ++ [(sql, ⟨sql, c.generation⟩)]
              misses := c.cache.misses + 1 } }) := by
  cases h : c.cache.handles.lookup sql <;>
    simp only [prepared, Job.run_bind, Job.run_subject, StatementCache.contains,
      StatementCache.getOrPrepare, h] <;> rfl

namespace Compiled

variable {c : Compiled} {values : List Value}

lemma length_fillAll {sql : String} {given : List (Value × Value)} {slots : List Slot}
    (h : fillAll sql given slots = .ok values) : values.length = slots.length := by
  induction slots generalizing values with
  | nil =>
    obtain rfl := Except.ok.inj h
    rfl
  | cons s slots ih =>
    rw [fillAll] at h
    split at h
    · cases h
    · obtain ⟨rest, hrest, rfl⟩ := map_eq_ok_iff.mp h
      rw [List.length_cons, List.length_cons, ih hrest]

lemma bind_sequence {given : Supplied} (h : c.bind given = .ok values) :
    c.bind (.sequence values) = .ok values := by
  have hlength : values.length = c.slots.length := by
    cases given with
    | nothing => exact length_fillAll h
    | named given => exact length_fillAll h
    | sequence given =>
      simp only [bind] at h
      split at h
      · next hlength =>
        obtain rfl := Except.ok.inj h
        exact hlength
      · cases h
    | single => cases h
    | uncountable kind => cases h
  rw [bind, if_pos hlength]

end Compiled

end Tablewright
