import Mathlib.Data.List.Induction
import Tablewright.Proofs.Engine.Course

namespace Tablewright

/-- Whether the schema may be another afterwards: a script has finished, or something was committed
that changes it. -/
def Event.Alters (ddl : Prop) : Event → Prop
  | ranScript _ _ _ => True
  | committed _ ok => ddl ∧ ok = true
  | _ => False

lemma Event.Alters.mono {ddl ddl' : Prop} (h : ddl → ddl') {e : Event} (he : e.Alters ddl) :
    e.Alters ddl' := by
  cases e with
  | ranScript => trivial
  | committed n ok => exact ⟨h he.1, he.2⟩
  | connected | executed | rolledBack | inspected | slept | closed | disposed => exact he.elim

namespace Lookup

structure Prepares (p : Lookup) (n : Nat) (sql : String) : Prop where
  missed : p.found = false
  connection : p.connection = n
  sql : p.sql = sql

end Lookup

/-- A history of requests up to the moment `now`, with the schema changed at the moments in
`changes`: each handle that was found had been prepared, and no change came in between. -/
structure Fresh (changes : Nat → Prop) (history : List Lookup) (now : Nat) : Prop where
  past : ∀ m, changes m → m < now
  bounded : ∀ p ∈ history, p.moment ≤ now
  ordered : history.Pairwise fun p u => p.moment ≤ u.moment
  justified : ∀ before u after, history = before ++ u :: after → u.found = true →
    ∃ p ∈ before, p.Prepares u.connection u.sql ∧ ∀ m, changes m → p.moment ≤ m → u.moment ≤ m

namespace Fresh

variable {changes changes' : Nat → Prop} {history : List Lookup} {now now' : Nat}

lemma nil (h : ∀ m, changes m → m < now) : Fresh changes [] now :=
  ⟨h, nofun, .nil, fun before u after heq => absurd heq (by simp)⟩

lemma later (h : Fresh changes history now) (hnow : now ≤ now')
    (hchanges : ∀ m, changes' m →
      changes m ∨ m < now' ∧ ∀ p ∈ history, p.moment ≤ m) : Fresh changes' history now' where
  past m hm := (hchanges m hm).elim (fun hm => Nat.lt_of_lt_of_le (h.past m hm) hnow) And.left
  bounded p hp := Nat.le_trans (h.bounded p hp) hnow
  ordered := h.ordered
  justified before u after heq hfound := by
    obtain ⟨p, hp, hprepares, hp'⟩ := h.justified before u after heq hfound
    refine ⟨p, hp, hprepares, fun m hm hpm => ?_⟩
    rcases hchanges m hm with hm | ⟨-, hm⟩
    · exact hp' m hm hpm
    · exact hm u (heq ▸ by simp)

lemma note (h : Fresh changes history now) {u : Lookup} (hmoment : u.moment = now)
    (hfound : u.found = true → ∃ p ∈ history, p.Prepares u.connection u.sql ∧
      ∀ m, changes m → m < p.moment) : Fresh changes (history ++ [u]) now where
  past := h.past
  bounded p hp := by
    rcases List.mem_append.mp hp with hp | hp
    · exact h.bounded p hp
    · exact List.mem_singleton.mp hp ▸ Nat.le_of_eq hmoment
  ordered := by
    refine List.pairwise_append.mpr ⟨h.ordered, List.pairwise_singleton _ _, fun p hp v hv => ?_⟩
    rw [List.mem_singleton.mp hv, hmoment]
    exact h.bounded p hp
  justified before v after heq hv := by
    rcases List.eq_nil_or_concat after with rfl | ⟨after, w, rfl⟩
    · obtain ⟨rfl, hvu⟩ := List.append_inj' heq rfl
      obtain rfl := (List.cons.inj hvu).1
      obtain ⟨p, hp, hprepares, hp'⟩ := hfound hv
      exact ⟨p, hp, hprepares, fun m hm hpm => absurd (hp' m hm) (by omega)⟩
    · rw [List.concat_eq_append, ← List.cons_append, ← List.append_assoc] at heq
      obtain ⟨hhistory, -⟩ := List.append_inj' heq rfl
      exact h.justified before v after hhistory hv

lemma last_prepares (h : Fresh changes history now) {before after : List Lookup} {u : Lookup}
    (heq : history = before ++ u :: after) (hfound : u.found = true) :
    ∃ earlier p later, before = earlier ++ p :: later ∧ p.Prepares u.connection u.sql ∧
      (∀ q ∈ later, ¬ q.Prepares u.connection u.sql) ∧
      ∀ m, changes m → p.moment ≤ m → u.moment ≤ m := by
  obtain ⟨p, hp, hprepares, hp'⟩ := h.justified before u after heq hfound
  have hordered : before.Pairwise fun p u => p.moment ≤ u.moment := by
    have := h.ordered
    rw [heq] at this
    exact (List.pairwise_append.mp this).1
  clear heq
  -- from the end: either the last request prepared the text, or the one sought is before it
  induction before using List.reverseRecOn with
  | nil => cases hp
  | append_singleton before q ih =>
    obtain ⟨hbefore, -, hq⟩ := List.pairwise_append.mp hordered
    by_cases hqprepares : q.Prepares u.connection u.sql
    · refine ⟨before, q, [], rfl, hqprepares, nofun, fun m hm hqm => ?_⟩
      rcases List.mem_append.mp hp with hp | hp
      · exact hp' m hm (Nat.le_trans (hq p hp q (List.mem_singleton_self q)) hqm)
      · exact hp' m hm (List.mem_singleton.mp hp ▸ hqm)
    · rcases List.mem_append.mp hp with hp | hp
      · obtain ⟨earlier, p, later, rfl, hprepares, hlater, hp'⟩ := ih hp hbefore
        refine ⟨earlier, p, later ++ [q], by simp, hprepares, fun r hr => ?_, hp'⟩
        rcases List.mem_append.mp hr with hr | hr
        · exact hlater r hr
        · exact List.mem_singleton.mp hr ▸ hqprepares
      · exact absurd (List.mem_singleton.mp hp ▸ hprepares) hqprepares

end Fresh

namespace Connection

variable {α β : Type} {changes : Nat → Prop} {history : List Lookup}
  {w w₁ w₂ w₃ : Exchange × Connection} {P Q : Event → Prop}

def Warm (changes : Nat → Prop) (history : List Lookup) (c : Connection) : Prop :=
  ∀ h ∈ c.cache.handles, ∃ p ∈ history, p.Prepares c.number h.1 ∧ ∀ m, changes m → m < p.moment

lemma Warm.append {c : Connection} (h : c.Warm changes history) (later : List Lookup) :
    c.Warm changes (history ++ later) := by
  intro e he
  obtain ⟨p, hp, hprepares, hp'⟩ := h e he
  exact ⟨p, List.mem_append_left later hp, hprepares, hp'⟩

structure Steady (P : Event → Prop) (w w' : Exchange × Connection) : Prop where
  number : w'.2.number = w.2.number
  handles : w'.2.cache.handles = w.2.cache.handles
  lookups : w'.1.lookups = w.1.lookups
  events : ∃ new, w'.1.events = w.1.events ++ new ∧ ∀ e ∈ new, P e

def Keeps (P : Event → Prop) (w w' : Exchange × Connection) : Prop :=
  ∃ new asked, w'.1.events = w.1.events ++ new ∧ (∀ e ∈ new, P e) ∧
    w'.1.lookups = w.1.lookups ++ asked ∧
    ∀ changes history, Fresh changes history w.1.events.length → w.2.Warm changes history →
      Fresh changes (history ++ asked) w'.1.events.length ∧ w'.2.Warm changes (history ++ asked)

namespace Steady

lemma refl (w : Exchange × Connection) : Steady P w w :=
  ⟨rfl, rfl, rfl, [], (List.append_nil _).symm, nofun⟩

lemma trans (h : Steady P w₁ w₂) (h' : Steady P w₂ w₃) : Steady P w₁ w₃ := by
  obtain ⟨new, hevents, hnew⟩ := h.events
  obtain ⟨new', hevents', hnew'⟩ := h'.events
  refine ⟨h'.number.trans h.number, h'.handles.trans h.handles, h'.lookups.trans h.lookups,
    new ++ new', by rw [hevents', hevents, List.append_assoc], fun e he => ?_⟩
  exact (List.mem_append.mp he).elim (hnew e) (hnew' e)

lemma mono (hPQ : ∀ e, P e → Q e) (h : Steady P w w₁) : Steady Q w w₁ := by
  obtain ⟨new, hevents, hnew⟩ := h.events
  exact ⟨h.number, h.handles, h.lookups, new, hevents, fun e he => hPQ e (hnew e he)⟩

lemma keeps (h : Steady P w w₁) : Keeps P w w₁ := by
  obtain ⟨new, hevents, hnew⟩ := h.events
  refine ⟨new, [], hevents, hnew, by rw [h.lookups, List.append_nil], ?_⟩
  intro changes history hfresh hwarm
  rw [List.append_nil]
  refine ⟨hfresh.later ?_ fun m hm => Or.inl hm, ?_⟩
  · rw [hevents, List.length_append]
    omega
  · rw [Warm, h.number, h.handles]
    exact hwarm

end Steady

instance : IsPreorder (Exchange × Connection) (Steady P) where
  refl := .refl
  trans _ _ _ := .trans

namespace Keeps

lemma trans (h : Keeps P w₁ w₂) (h' : Keeps P w₂ w₃) : Keeps P w₁ w₃ := by
  obtain ⟨new, asked, hevents, hnew, hlookups, hfresh⟩ := h
  obtain ⟨new', asked', hevents', hnew', hlookups', hfresh'⟩ := h'
  refine ⟨new ++ new', asked ++ asked', by rw [hevents', hevents, List.append_assoc], fun e he => ?_,
    by rw [hlookups', hlookups, List.append_assoc], fun changes history hw hwarm => ?_⟩
  · exact (List.mem_append.mp he).elim (hnew e) (hnew' e)
  · obtain ⟨hw, hwarm⟩ := hfresh changes history hw hwarm
    rw [← List.append_assoc]
    exact hfresh' changes _ hw hwarm

lemma mono (hPQ : ∀ e, P e → Q e) (h : Keeps P w w₁) : Keeps Q w w₁ := by
  obtain ⟨new, asked, hevents, hnew, h⟩ := h
  exact ⟨new, asked, hevents, fun e he => hPQ e (hnew e he), h⟩

end Keeps

def Steadily (P : Event → Prop) (job : Job Connection α) : Prop :=
  ∀ w, Steady P w (job.run w).2

namespace Steadily

variable {job : Job Connection α}

lemma pure (a : α) : Steadily P (Pure.pure a : Job Connection α) := fun w => .refl w

lemma throw (e : Failure) : Steadily P (MonadExcept.throw e : Job Connection α) := fun w => .refl w

lemma subject : Steadily P Job.subject := fun w => .refl w

lemma bind {next : α → Job Connection β} (h : Steadily P job) (hnext : ∀ a, Steadily P (next a)) :
    Steadily P (job >>= next) := by
  intro w
  have hjob := h w
  rw [Job.run_bind]
  rcases hrun : job.run w with ⟨e | a, w'⟩
  · rw [hrun] at hjob
    exact hjob
  · rw [hrun] at hjob
    exact hjob.trans (hnext a w')

lemma ask {request : Request} {event : Bool → Event} (h : ∀ ok, P (event ok)) :
    Steadily P (Job.sure (Job.ask request event)) := by
  intro w
  refine ⟨rfl, rfl, Exchange.ask_lookups .., _, Exchange.ask_events .., fun e he => ?_⟩
  exact List.mem_singleton.mp he ▸ h _

lemma record {event : Event} (h : P event) : Steadily P (Job.sure (Job.record event)) :=
  fun _ => ⟨rfl, rfl, rfl, [event], rfl, fun _ he => List.mem_singleton.mp he ▸ h⟩

lemma rollback (h : ∀ n, P (.rolledBack n)) : Steadily P (Job.sure rollback) :=
  fun w => ⟨rfl, rfl, rfl, [.rolledBack w.2.number], rfl, fun _ he => List.mem_singleton.mp he ▸ h _⟩

lemma ensuring (h : Steadily P job) (hrollback : ∀ n, P (.rolledBack n)) :
    Steadily P (Job.ensuring job Connection.rollback) := fun w =>
  (h w).trans (rollback hrollback _)

end Steadily

abbrev Calm (e : Event) : Prop := ¬ e.Alters True

lemma steady_locks (hbegun : ∀ n ok, P (.executed n beginText [] ok))
    (hrolledBack : ∀ n, P (.rolledBack n)) (hslept : ∀ delay, P (.slept delay)) :
    Locks (Steady P) where
  begun x c := Steadily.ask (hbegun c.number) (x, c)
  rolledBack x c := Steadily.rollback hrolledBack (x, c)
  slept x c delay := Steadily.record (hslept delay) (x, c)

lemma steady_transacts (h : Locks (Steady P)) (hcommitted : ∀ n ok, P (.committed n ok)) :
    Transacts (Steady P) where
  toLocks := h
  committed x c := Steadily.ask (hcommitted c.number) (x, c)

lemma steady_inspected (h : ∀ n ok, P (.inspected n ok)) (x : Exchange) (c : Connection) :
    Steady P (x, c) ((x.inspect c.number).2, c) := by
  refine ⟨rfl, rfl, x.inspect_lookups c.number, _, x.inspect_events c.number, fun e he => ?_⟩
  exact List.mem_singleton.mp he ▸ h _ _

lemma steadily_takeLock : Steadily Calm takeLock :=
  (steady_locks (fun _ _ => id) (fun _ => id) fun _ => id).takeLock

lemma steadily_execute (h : Handle String) (values : List Value) :
    Steadily Calm (execute h values) :=
  moves_execute fun x c => Steadily.ask (fun _ => id) (x, c)

lemma steadily_runScript (script : String) : Steadily (fun _ => True) (runScript script) := by
  refine .bind .subject fun c => .bind (.ask fun _ => trivial) fun reply => ?_
  cases hreply : reply.failure? with
  | none => simpa only [hreply] using .pure _
  | some message => simpa only [hreply] using .throw _

lemma steadily_readCatalogOnly : Steadily Calm readCatalogOnly :=
  moves_readCatalogOnly (steady_inspected fun _ _ => id)
    fun x c => Steadily.rollback (fun _ => id) (x, c)

def Commits (w : Exchange × Connection) (out : Except Failure α × (Exchange × Connection)) : Prop :=
  ∃ w₁, Keeps Calm w w₁ ∧ Steady (fun e => ¬ e.Alters (∃ f, out.1 = .error f)) w₁ out.2

lemma Keeps.commits {r : Except Failure α} (h : Keeps Calm w w₁) : Commits w (r, w₁) :=
  ⟨w₁, h, .refl w₁⟩

lemma commits_commit (w : Exchange × Connection) : Commits w (commit.run w) := by
  obtain ⟨x, c⟩ := w
  have hevents := x.ask_events .commit (.committed c.number)
  have hlookups := x.ask_lookups .commit (.committed c.number)
  simp only [commit, Job.run_bind, Job.run_subject, Job.run_sure, Job.ask]
  generalize x.ask .commit (.committed c.number) = asked at hevents hlookups
  obtain ⟨reply, x'⟩ := asked
  refine ⟨(x, c), (Steady.refl (P := Calm) _).keeps, ?_⟩
  cases hreply : reply.failure? with
  | none =>
    refine ⟨rfl, rfl, hlookups, _, hevents, fun e he => ?_⟩
    obtain rfl := List.mem_singleton.mp he
    rintro ⟨⟨f, hf⟩, -⟩
    cases hf
  | some message =>
    -- a commit that was refused has made nothing stay
    refine ⟨rfl, rfl, hlookups, _, hevents, fun e he => ?_⟩
    obtain rfl := List.mem_singleton.mp he
    rw [hreply]
    rintro ⟨-, h⟩
    cases h

lemma keeps_prepared (sql : String) (w : Exchange × Connection) :
    Keeps Calm w ((prepared sql).run w).2 := by
  obtain ⟨x, c⟩ := w
  rw [run_prepared]
  cases hlookup : c.cache.handles.lookup sql with
  | some h =>
    -- a warm cache has only handles that were prepared after every change
    refine ⟨[], [_], (List.append_nil _).symm, nofun, rfl, fun changes history hfresh hwarm => ?_⟩
    have hmem := mem_of_lookup hlookup
    exact ⟨hfresh.note rfl fun _ => hwarm _ hmem, hwarm.append _⟩
  | none =>
    -- the handle that is kept now was prepared by this very request
    refine ⟨[], [_], (List.append_nil _).symm, nofun, rfl, fun changes history hfresh hwarm => ?_⟩
    refine ⟨hfresh.note rfl nofun, fun e he => ?_⟩
    rcases List.mem_append.mp he with he | he
    · exact hwarm.append _ e he
    · obtain rfl := List.mem_singleton.mp he
      exact ⟨_, List.mem_append_right _ (List.mem_singleton_self _), ⟨rfl, rfl, rfl⟩, hfresh.past⟩

lemma keeps_run (c : Compiled) (given : Supplied) (w : Exchange × Connection) :
    Keeps Calm w ((run c given).run w).2 := by
  rw [run, Job.run_bind, Job.run_ofExcept]
  cases c.bind given with
  | error e => exact (Steady.refl w).keeps
  | ok values =>
    have hprepared := keeps_prepared c.sql w
    simp only [Except.mapError, Job.run_bind]
    rcases hrun : (prepared c.sql).run w with ⟨e | h, w'⟩
    · rw [hrun] at hprepared
      exact hprepared
    · rw [hrun] at hprepared
      exact hprepared.trans (steadily_execute h values w').keeps

lemma keeps_read (c : Compiled) (given : Supplied) (w : Exchange × Connection) :
    Keeps Calm w ((read c given).run w).2 :=
  (keeps_run c given w).trans (Steadily.rollback (fun _ => id) _).keeps

lemma Commits.trans {out : Except Failure α × (Exchange × Connection)} (h : Keeps Calm w w₁)
    (h' : Commits w₁ out) : Commits w out := by
  obtain ⟨w₂, hkeeps, hsteady⟩ := h'
  exact ⟨w₂, h.trans hkeeps, hsteady⟩

lemma Commits.keeps {ddl : Prop} {out : Except Failure α × (Exchange × Connection)}
    (h : Commits w out) (hddl : ddl → ∃ f, out.1 = .error f) :
    Keeps (fun e => ¬ e.Alters ddl) w out.2 := by
  obtain ⟨w₁, hkeeps, hsteady⟩ := h
  refine (hkeeps.mono fun e he h => ?_).trans (hsteady.mono fun e he h => ?_).keeps
  · exact he (h.mono fun _ => trivial)
  · exact he (h.mono hddl)

lemma commits_inTransaction {work : Job Connection α}
    (hwork : ∀ w, Keeps Calm w (work.run w).2) (w : Exchange × Connection) :
    Commits w ((inTransaction work).run w) := by
  have hlock := steadily_takeLock w
  rw [inTransaction, Job.run_bind]
  rcases hrun : takeLock.run w with ⟨e | _, w₁⟩
  · rw [hrun] at hlock
    exact hlock.keeps.commits
  · rw [hrun] at hlock
    refine .trans hlock.keeps ?_
    have hw := hwork w₁
    simp only [Job.run_undoing, Job.run_bind]
    rcases hrun : work.run w₁ with ⟨e | a, w₂⟩
    · rw [hrun] at hw
      exact (hw.trans (Steadily.rollback (fun _ => id) w₂).keeps).commits
    · rw [hrun] at hw
      refine .trans hw ?_
      obtain ⟨w₃, hkeeps, hsteady⟩ := commits_commit w₂
      rcases hrun : commit.run w₂ with ⟨f | ⟨⟩, w₄⟩
      · simp only [hrun]
        rw [hrun] at hsteady
        refine ⟨w₃, hkeeps, Steady.trans (hsteady.mono fun e he h => he (h.mono ?_))
          (Steadily.rollback (fun _ => id) w₄)⟩
        exact fun _ => ⟨f, rfl⟩
      · simp only [hrun]
        rw [hrun] at hsteady
        refine ⟨w₃, hkeeps, hsteady.mono fun e he h => he (h.mono ?_)⟩
        rintro ⟨f, ⟨⟩⟩

lemma commits_write (c : Compiled) (given : Supplied) (w : Exchange × Connection) :
    Commits w ((write c given).run w) := by
  rw [write, Job.run_bind, Job.run_ofExcept]
  cases c.bind given with
  | error e => exact (Steady.refl w).keeps.commits
  | ok values => exact commits_inTransaction (keeps_run c (.sequence values)) w

lemma steadily_migrate (declared : Schema) (readOnly : Bool) :
    Steadily (fun _ => True) (migrate declared readOnly) := by
  have hlocks : Locks (Steady fun _ => True) :=
    steady_locks (fun _ _ => trivial) (fun _ => trivial) fun _ => trivial
  have hinspected := steady_inspected (P := fun _ => True) fun _ _ => trivial
  cases readOnly with
  | true => exact moves_check hinspected hlocks.rolledBack declared
  | false =>
    refine (steady_transacts hlocks fun _ _ => trivial).migrate hinspected fun live plan _ => ?_
    exact moves_apply fun _ _ x c => Steadily.ask (fun _ => trivial) (x, c)

end Connection

end Tablewright
