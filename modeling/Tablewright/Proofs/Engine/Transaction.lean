import Tablewright.Proofs.Engine.Job
import Tablewright.Proofs.Engine.Session
import Tablewright.Proofs.Outcome

namespace Tablewright

namespace Connection

variable {α β : Type} {n : Nat} {s : Session} {job : Job Connection α}
  {Q R : Except Failure α → Session → Prop}

structure Sound (n : Nat) (c : Connection) : Prop where
  number : c.number = n
  handles : ∀ e ∈ c.cache.handles, e.2.sql = e.1

lemma sound_of_connect {role : Role} {settings : DatabaseSettings} {x x' : Exchange}
    {k : Connection} (h : (connect role settings).run (x, ()) = (.ok k, x', ())) :
    k.Sound k.number := by
  refine ⟨rfl, fun e he => ?_⟩
  rw [(connect_eq_ok h).1] at he
  cases he

/-- Whatever the engine answers, the job on connection `n` leaves a session as `Q` tells. -/
def Leaves (n : Nat) (s : Session) (job : Job Connection α)
    (Q : Except Failure α → Session → Prop) : Prop :=
  ∀ w : Exchange × Connection, w.2.Sound n →
    (job.run w).2.2.Sound n ∧ ∃ new, (job.run w).2.1.events = w.1.events ++ new ∧
      ∀ s', Session.Runs n s new s' → Q (job.run w).1 s'

namespace Leaves

lemma mono (h : Leaves n s job Q) (hQ : ∀ r s', Q r s' → R r s') : Leaves n s job R := by
  intro w hw
  obtain ⟨hsound, new, hevents, hruns⟩ := h w hw
  exact ⟨hsound, new, hevents, fun s' hs' => hQ _ s' (hruns s' hs')⟩

lemma silent (h : ∀ w : Exchange × Connection, w.2.Sound n → (job.run w).2.2.Sound n ∧
    (job.run w).2.1.events = w.1.events ∧ Q (job.run w).1 s) : Leaves n s job Q := by
  intro w hw
  obtain ⟨hsound, hevents, hQ⟩ := h w hw
  refine ⟨hsound, [], by rw [hevents, List.append_nil], ?_⟩
  rintro s' rfl
  exact hQ

lemma pure {a : α} (h : Q (.ok a) s) : Leaves n s (Pure.pure a) Q :=
  silent fun _ hw => ⟨hw, rfl, h⟩

lemma throw {e : Failure} (h : Q (.error e) s) : Leaves n s (MonadExcept.throw e) Q :=
  silent fun _ hw => ⟨hw, rfl, h⟩

lemma ofExcept {ε : Type} {wrap : ε → Failure} {r : Except ε α} (h : Q (r.mapError wrap) s) :
    Leaves n s (Job.ofExcept wrap r) Q := by
  cases r with
  | ok a => exact pure h
  | error e => exact throw h

lemma get {Q : Except Failure (Exchange × Connection) → Session → Prop}
    (h : ∀ w : Exchange × Connection, w.2.number = n → Q (.ok w) s) :
    Leaves n s MonadState.get Q :=
  silent fun w hw => ⟨hw, rfl, h w hw.number⟩

lemma subject {Q : Except Failure Connection → Session → Prop}
    (h : ∀ c : Connection, c.number = n → Q (.ok c) s) : Leaves n s Job.subject Q :=
  silent fun w hw => ⟨hw, rfl, h w.2 hw.number⟩

lemma bind {next : α → Job Connection β} {R : Except Failure β → Session → Prop}
    (h : Leaves n s job fun r s' => match r with
      | .ok a => Leaves n s' (next a) R
      | .error e => R (.error e) s') : Leaves n s (job >>= next) R := by
  intro w hw
  obtain ⟨hsound, new, hevents, hruns⟩ := h w hw
  rw [Job.run_bind]
  rcases hrun : job.run w with ⟨e | a, w'⟩
  · rw [hrun] at hsound hevents hruns
    exact ⟨hsound, new, hevents, hruns⟩
  · rw [hrun] at hsound hevents hruns
    -- some session is reached, so the events of what follows are known before a session is chosen
    obtain ⟨m, hm⟩ := Session.exists_runs n s new
    obtain ⟨hsound', new', hevents', -⟩ := hruns m hm w' hsound
    refine ⟨hsound', new ++ new', ?_, ?_⟩
    · rw [hevents', hevents, List.append_assoc]
    · intro s' hs'
      obtain ⟨m, hm, hs'⟩ := steps_append.mp hs'
      obtain ⟨-, new'', hevents'', hruns''⟩ := hruns m hm w' hsound
      have hsame : new'' = new' := List.append_cancel_left (hevents''.symm.trans hevents')
      exact hruns'' s' (hsame ▸ hs')

lemma andThen {next : α → Job Connection β} {R : Except Failure β → Session → Prop}
    (h : Leaves n s job Q) (hnext : ∀ a s', Q (.ok a) s' → Leaves n s' (next a) R)
    (herror : ∀ e s', Q (.error e) s' → R (.error e) s') : Leaves n s (job >>= next) R := by
  refine bind (h.mono ?_)
  rintro (e | a) s' hQ
  · exact herror e s' hQ
  · exact hnext a s' hQ

lemma ask {request : Request} {event : Bool → Event} {Q : Except Failure Reply → Session → Prop}
    (h : ∀ reply s', Session.Step n s (event reply.failure?.isNone) s' → Q (.ok reply) s') :
    Leaves n s (Job.sure (Job.ask request event)) Q := by
  intro w hw
  refine ⟨hw, _, Exchange.ask_events w.1 request event, ?_⟩
  intro s' hs'
  exact h _ s' (steps_singleton.mp hs')

lemma rollback : Leaves n s (Job.sure rollback) fun r s' => r = .ok () ∧ s' = ⟨s.committed, none⟩ := by
  intro w hw
  obtain rfl := hw.number
  refine ⟨hw, _, rfl, fun s' hs' => ⟨rfl, ?_⟩⟩
  exact (steps_singleton.mp hs').of_rolledBack

lemma rolledBack_events {w : Exchange × Connection} (hw : w.2.Sound n) :
    (Connection.rollback w).2.1.events = w.1.events ++ [.rolledBack n] := by
  rw [← hw.number]
  rfl

lemma exists_of_rolledBack {new : List Event} {s' : Session}
    (h : Session.Runs n s (new ++ [.rolledBack n]) s') :
    ∃ m, Session.Runs n s new m ∧ s' = ⟨m.committed, none⟩ := by
  obtain ⟨m, hm, h⟩ := steps_append.mp h
  exact ⟨m, hm, (steps_singleton.mp h).of_rolledBack⟩

lemma undoing (h : Leaves n s job Q) (hok : ∀ a s', Q (.ok a) s' → R (.ok a) s')
    (herror : ∀ e s', Q (.error e) s' → R (.error e) ⟨s'.committed, none⟩) :
    Leaves n s (Job.undoing job Connection.rollback) R := by
  intro w hw
  obtain ⟨hsound, new, hevents, hruns⟩ := h w hw
  rw [Job.run_undoing]
  rcases hrun : job.run w with ⟨e | a, w'⟩
  · rw [hrun] at hsound hevents hruns
    refine ⟨hsound, new ++ [.rolledBack n], ?_, fun s' hs' => ?_⟩
    · rw [← List.append_assoc, ← hevents]
      exact rolledBack_events hsound
    · obtain ⟨m, hm, rfl⟩ := exists_of_rolledBack hs'
      exact herror e m (hruns m hm)
  · rw [hrun] at hsound hevents hruns
    exact ⟨hsound, new, hevents, fun s' hs' => hok a s' (hruns s' hs')⟩

lemma ensuring (h : Leaves n s job Q) (hQ : ∀ r s', Q r s' → R r ⟨s'.committed, none⟩) :
    Leaves n s (Job.ensuring job Connection.rollback) R := by
  intro w hw
  obtain ⟨hsound, new, hevents, hruns⟩ := h w hw
  rw [Job.run_ensuring]
  refine ⟨hsound, new ++ [.rolledBack n], ?_, fun s' hs' => ?_⟩
  · rw [← List.append_assoc, ← hevents]
    exact rolledBack_events hsound
  · obtain ⟨m, hm, rfl⟩ := exists_of_rolledBack hs'
    exact hQ _ m (hruns m hm)

lemma reword {f : Failure → Failure} (h : Leaves n s job Q)
    (hok : ∀ a s', Q (.ok a) s' → R (.ok a) s')
    (herror : ∀ e s', Q (.error e) s' → R (.error (f e)) s') :
    Leaves n s (Job.reword f job) R := by
  intro w hw
  obtain ⟨hsound, new, hevents, hruns⟩ := h w hw
  rw [Job.run_reword]
  refine ⟨hsound, new, hevents, fun s' hs' => ?_⟩
  have hQ := hruns s' hs'
  cases hr : (job.run w).1 with
  | ok a => exact hok a s' (hr ▸ hQ)
  | error e => exact herror e s' (hr ▸ hQ)

end Leaves

variable {c p : List Executed}

structure Working (c p : List Executed) (did : α → List Executed) (r : Except Failure α)
    (s : Session) : Prop where
  committed : s.committed = c
  pending : ∀ a, r = .ok a → s.pending = some (p ++ did a)

structure Settled (c : List Executed) (did : α → List Executed) (r : Except Failure α)
    (s : Session) : Prop where
  closed : s.pending = none
  failed : ∀ e, r = .error e → s.committed = c
  returned : ∀ a, r = .ok a → s.committed = c ++ did a

def Begun (c : List Executed) : Except Failure Unit → Session → Prop
  | .ok (), s => s = ⟨c, some []⟩
  | .error _, s => s = ⟨c, none⟩

lemma leaves_tryBegin : Leaves n ⟨c, none⟩ tryBegin fun r s =>
    (r = .ok none ∧ s = ⟨c, some []⟩) ∨ ∃ f, r = .ok (some f) ∧ s = ⟨c, none⟩ := by
  refine .bind (.get ?_)
  rintro ⟨x, k⟩ rfl
  refine .bind (.ask ?_)
  intro reply s' hstep
  cases hreply : reply.failure? with
  | none =>
    rw [hreply] at hstep
    simp only [hreply]
    exact .pure (Or.inl ⟨rfl, hstep.of_begin⟩)
  | some message =>
    rw [hreply] at hstep
    simp only [hreply]
    refine .bind (.mono .rollback ?_)
    rintro _ s'' ⟨rfl, rfl⟩
    have hcommitted : s'.committed = c := hstep.committed_of_failed rfl
    exact .pure (Or.inr ⟨_, rfl, by rw [hcommitted]⟩)

lemma leaves_wait (attempt : Nat) : Leaves n s (wait attempt) fun _ s' => s' = s := by
  rintro ⟨x, k⟩ hw
  rw [run_wait]
  have hstay : ∃ new, x.events = x.events ++ new ∧ ∀ s', Session.Runs n s new s' → s' = s :=
    ⟨[], (List.append_nil _).symm, fun s' hs' => hs'⟩
  split
  · exact ⟨hw, hstay⟩
  · next delay _ =>
    split
    · exact ⟨hw, hstay⟩
    · refine ⟨hw, [.slept delay], rfl, ?_⟩
      rintro s' hs'
      cases steps_singleton.mp hs'
      rfl

lemma leaves_beginFrom (attempt left : Nat) :
    Leaves n ⟨c, none⟩ (beginFrom attempt left) (Begun c) := by
  induction left generalizing attempt with
  | zero =>
    refine .bind (leaves_tryBegin.mono ?_)
    rintro _ s' (⟨rfl, rfl⟩ | ⟨f, rfl, rfl⟩)
    · exact .pure rfl
    · exact .throw rfl
  | succ left ih =>
    refine .bind (leaves_tryBegin.mono ?_)
    rintro _ s' (⟨rfl, rfl⟩ | ⟨⟨message, locked⟩, rfl, rfl⟩)
    · exact .pure rfl
    · cases locked with
      | false => exact .bind (.throw rfl)
      | true =>
        refine .bind ((leaves_wait attempt).mono ?_)
        rintro (e | a) s' rfl
        · rfl
        · exact ih (attempt + 1)

lemma leaves_takeLock : Leaves n ⟨c, none⟩ takeLock (Begun c) :=
  .bind (.subject fun k _ => leaves_beginFrom 0 k.settings.maxRetries)

lemma leaves_execute (h : Handle String) (values : List Value) :
    Leaves n ⟨c, some p⟩ (execute h values) (Working c p fun _ => [⟨h.sql, values⟩]) := by
  refine .bind (.get ?_)
  rintro ⟨x, k⟩ rfl
  refine .bind (.ask ?_)
  intro reply s' hstep
  cases reply with
  | done count | rows columns rows =>
    obtain rfl := hstep.of_executed
    exact .pure ⟨rfl, fun _ _ => rfl⟩
  | failed message =>
    exact .throw ⟨hstep.committed_of_failed rfl, nofun⟩

lemma leaves_execute_alone (h : Handle String) (values : List Value) :
    Leaves n ⟨c, none⟩ (execute h values) fun r s => match r with
      | .ok _ => s.committed = c ∨ s.committed = c ++ [⟨h.sql, values⟩]
      | .error _ => s.committed = c := by
  refine .bind (.get ?_)
  rintro ⟨x, k⟩ rfl
  refine .bind (.ask ?_)
  intro reply s' hstep
  cases reply with
  | done count | rows columns rows => exact .pure hstep.of_executed_alone
  | failed message => exact .throw (hstep.committed_of_failed rfl)

lemma leaves_commit : Leaves n ⟨c, some p⟩ commit fun r s => match r with
    | .ok _ => s = ⟨c ++ p, none⟩
    | .error _ => s.committed = c := by
  refine .bind (.subject ?_)
  rintro k rfl
  refine .bind (.ask ?_)
  intro reply s' hstep
  cases hreply : reply.failure? with
  | none =>
    rw [hreply] at hstep
    simp only [hreply]
    exact .pure hstep.of_committed
  | some message =>
    rw [hreply] at hstep
    simp only [hreply]
    exact .throw (hstep.committed_of_failed rfl)

lemma leaves_inTransaction {did : α → List Executed}
    (h : Leaves n ⟨c, some []⟩ job (Working c [] did)) :
    Leaves n ⟨c, none⟩ (inTransaction job) (Settled c did) := by
  -- `Q` is for the work with its commit: all that it did is there to stay, or nothing
  refine .bind (leaves_takeLock.mono ?_)
  rintro (e | ⟨⟩) s' rfl
  · exact ⟨rfl, fun _ _ => rfl, nofun⟩
  · refine .undoing (Q := fun r s => (∀ a, r = .ok a → s = ⟨c ++ did a, none⟩) ∧
      ∀ e, r = .error e → s.committed = c) (.andThen h ?_ ?_) ?_ ?_
    · rintro a ⟨c', p'⟩ ⟨hcommitted, hpending⟩
      obtain rfl : c' = c := hcommitted
      obtain rfl : p' = some (did a) := hpending a rfl
      refine .bind (leaves_commit.mono ?_)
      rintro (e | ⟨⟩) s hs
      · exact ⟨nofun, fun _ _ => hs⟩
      · refine .pure ⟨?_, nofun⟩
        rintro _ ⟨⟩
        exact hs
    · intro e s hs
      exact ⟨nofun, fun _ _ => hs.committed⟩
    · rintro a s ⟨hs, -⟩
      obtain rfl := hs a rfl
      refine ⟨rfl, nofun, ?_⟩
      rintro _ ⟨⟩
      rfl
    · rintro e s ⟨-, hs⟩
      exact ⟨rfl, fun _ _ => hs e rfl, nofun⟩

end Connection

end Tablewright
