import Tablewright.Proofs.Database.Walk

namespace Tablewright

open Job (Moves)
open Connection (Leaves Located)

variable {α : Type}

lemma Connection.Leaves.on_store {n : Nat} {job : Job Connection α}
    {Q : List Executed → Except Failure α → Session → Prop}
    (h : ∀ c, Leaves n ⟨c, none⟩ job (Q c)) (hlocated : Moves Located job)
    {w : Exchange × Connection} (hw : w.2.Sound n) :
    (job.run w).2.2.Sound n ∧ ∃ new, (job.run w).2.1.events = w.1.events ++ new ∧
      ∀ c st, Store.Runs (.quiet c) new st →
        ∃ s, Q c (job.run w).1 s ∧ st = (Store.quiet c).withSession n s := by
  obtain ⟨-, new, hevents, hnew⟩ := hlocated w
  refine ⟨(h [] w hw).1, new, hevents, fun c st hst => ?_⟩
  obtain ⟨-, new', hevents', hleft⟩ := h c w hw
  obtain rfl := List.append_cancel_left (hevents.symm.trans hevents')
  obtain ⟨s, hs, rfl⟩ := hst.of (hw.number ▸ hnew)
  exact ⟨s, hleft s hs, rfl⟩

def Event.Harmless : Event → Prop
  | connected _ _ | closed _ | disposed => True
  | _ => False

lemma Store.Step.of_harmless {c : List Executed} {e : Event} {st : Store}
    (h : Step (.quiet c) e st) (he : e.Harmless) : st = .quiet c := by
  cases h with
  | nowhere => rfl
  | here hn hs =>
    cases hs with
    | connected => exact Store.withSession_session _ _
    | closed => exact Store.withSession_quiet _ _ _
    | elsewhere => exact Store.withSession_session _ _
    | begun | ranAlone | ranAtOnce | refused | committedNothing | notCommitted | rolledBack
    | inspected | inspectedAlone | notInspected | ranScript => cases he

lemma Store.Runs.of_harmless {c : List Executed} {es : List Event} {st : Store}
    (h : Runs (.quiet c) es st) (hes : ∀ e ∈ es, e.Harmless) : st = .quiet c := by
  induction es with
  | nil => exact h
  | cons e es ih =>
    obtain ⟨he, hes⟩ := List.forall_mem_cons.mp hes
    obtain ⟨m, hm, hst⟩ := h
    exact ih (hm.of_harmless he ▸ hst) hes

namespace Exchange

variable {x x' x'' : Exchange}

def since (x x' : Exchange) : List Event := x'.events.drop x.events.length

lemma since_eq {new : List Event} (h : x'.events = x.events ++ new) : x.since x' = new := by
  rw [since, h, List.drop_left]

def Rests (x x' : Exchange) : Prop :=
  ∃ new, x'.events = x.events ++ new ∧ ∀ e ∈ new, e.Harmless

namespace Rests

lemma refl (x : Exchange) : Rests x x := ⟨[], (List.append_nil _).symm, nofun⟩

lemma trans (h : Rests x x') (h' : Rests x' x'') : Rests x x'' := by
  obtain ⟨new, hevents, hnew⟩ := h
  obtain ⟨new', hevents', hnew'⟩ := h'
  refine ⟨new ++ new', by rw [hevents', hevents, List.append_assoc], fun e he => ?_⟩
  exact (List.mem_append.mp he).elim (hnew e) (hnew' e)

lemma recordAll {es : List Event} (hes : ∀ e ∈ es, e.Harmless) (x : Exchange) :
    Rests x (x.recordAll es) := ⟨es, rfl, hes⟩

lemma of_connected {n : Nat} {ok : Bool} (h : x'.events = x.events ++ [.connected n ok]) :
    Rests x x' := ⟨_, h, fun _ hf => List.mem_singleton.mp hf ▸ trivial⟩

end Rests

end Exchange

namespace Database

structure Sound (d : Database) : Prop where
  writer : d.writer.Sound d.writer.number
  readers : ∀ r ∈ d.readers, r.2.Sound r.2.number

def Settles (w w' : Exchange × Database) : Prop :=
  w.2.Sound → w'.2.Sound ∧ ∃ new, w'.1.events = w.1.events ++ new ∧
    ∀ c st, Store.Runs (.quiet c) new st → ∃ c', st = .quiet c'

namespace Settles

variable {w w' w'' : Exchange × Database}

lemma of_same (hevents : w'.1.events = w.1.events) (h : w.2.Sound → w'.2.Sound) :
    Settles w w' := fun hw =>
  ⟨h hw, [], by rw [hevents, List.append_nil], fun c _ hst => ⟨c, hst⟩⟩

lemma refl (w : Exchange × Database) : Settles w w := of_same rfl id

lemma trans (h : Settles w w') (h' : Settles w' w'') : Settles w w'' := by
  intro hw
  obtain ⟨hw, new, hevents, hnew⟩ := h hw
  obtain ⟨hw, new', hevents', hnew'⟩ := h' hw
  refine ⟨hw, new ++ new', by rw [hevents', hevents, List.append_assoc], fun c st hst => ?_⟩
  obtain ⟨m, hm, hst⟩ := steps_append.mp hst
  obtain ⟨c', rfl⟩ := hnew c m hm
  exact hnew' c' st hst

instance : IsPreorder (Exchange × Database) Settles where
  refl := refl
  trans _ _ _ := trans

lemma of_rests (hx : w.1.Rests w'.1) (h : w.2.Sound → w'.2.Sound) : Settles w w' := by
  obtain ⟨new, hevents, hnew⟩ := hx
  exact fun hw => ⟨h hw, new, hevents, fun c st hst => ⟨c, hst.of_harmless hnew⟩⟩

end Settles

variable {w : Exchange × Database}

structure Closes (job : Job Connection α) : Prop where
  located : Moves Located job
  leaves : ∀ n c, Leaves n ⟨c, none⟩ job fun _ s => s.pending = none

lemma Closes.on_store {job : Job Connection α} (h : Closes job) {x : Exchange} {k : Connection}
    (hk : k.Sound k.number) :
    (job.run (x, k)).2.2.Sound (job.run (x, k)).2.2.number ∧
      ∃ new, (job.run (x, k)).2.1.events = x.events ++ new ∧
        ∀ c st, Store.Runs (.quiet c) new st → ∃ c', st = .quiet c' := by
  obtain ⟨hsound, new, hevents, hnew⟩ := Leaves.on_store (h.leaves k.number) h.located
    (w := (x, k)) hk
  refine ⟨hsound.number.symm ▸ hsound, new, hevents, fun c st hst => ?_⟩
  obtain ⟨⟨c', p⟩, rfl, rfl⟩ := hnew c st hst
  exact ⟨c', Store.withSession_quiet c c' k.number⟩

lemma closes_errand (e : Connection.Errand) : Closes e.job := by
  refine ⟨fun w => (Connection.works_errand e w).located, fun n c => ?_⟩
  cases e with
  | task t => exact (Connection.leaves_job t).mono fun _ _ hs => hs.closed
  | script text =>
    -- whatever a script did, it is given up what it left open
    refine .ensuring (Q := fun _ _ => True) (.bind (.subject fun k _ => ?_)) fun _ _ _ => rfl
    refine .bind (.ask fun reply s' _ => ?_)
    cases hreply : reply.failure? with
    | none => simpa only [hreply] using .pure trivial
    | some message => simpa only [hreply] using .throw trivial

lemma sound_putReader {slot : Nat} {k : Connection} {d : Database} (h : d.Sound)
    (hk : k.Sound k.number) : Sound { d with readers := putReader slot k d.readers } := by
  refine ⟨h.writer, fun r hr => ?_⟩
  rcases mem_putReader hr with rfl | hr
  · exact hk
  · exact h.readers r hr

lemma sound_shut {k : Connection} (h : k.Sound k.number) : (shut k).Sound (shut k).number := by
  rw [shut]
  split
  · exact h
  · exact ⟨rfl, fun _ hh => absurd hh List.not_mem_nil⟩

lemma harmless_closings {ks : List Connection} : ∀ e ∈ closings ks, e.Harmless := by
  intro e he
  obtain ⟨k, -, rfl⟩ := List.mem_map.mp he
  trivial

lemma settles_step {w w' : Exchange × Database} (h : Step w w') : Settles w w' := by
  cases h with
  | @writer x x' d k h =>
    obtain ⟨e, he⟩ := h
    intro hd
    obtain ⟨hsound, hnew⟩ := (closes_errand e).on_store (x := x) hd.writer
    rw [he] at hsound hnew
    exact ⟨⟨hsound, hd.readers⟩, hnew⟩
  | @reader x x' d slot k k' hk h =>
    obtain ⟨e, he⟩ := h
    intro hd
    obtain ⟨hsound, hnew⟩ := (closes_errand e).on_store (x := x) (hd.readers _ (mem_of_lookup hk))
    rw [he] at hsound hnew
    exact ⟨sound_putReader hd hsound, hnew⟩
  | @joined x x' d slot k _ _ hconnect =>
    obtain ⟨-, -, hevents⟩ := Connection.connect_eq_ok hconnect
    exact .of_rests (.of_connected hevents) fun hd =>
      sound_putReader hd (Connection.sound_of_connect hconnect)
  | @refused x x' d e hconnect =>
    obtain ⟨n, ok, hevents⟩ := Connection.connect_events .reader d.settings x
    rw [hconnect] at hevents
    exact .of_rests (.of_connected hevents) id
  | cleared =>
    refine .of_same rfl fun h => ⟨⟨rfl, nofun⟩, fun r hr => ?_⟩
    obtain ⟨s, -, rfl⟩ := List.mem_map.mp hr
    exact ⟨rfl, nofun⟩
  | noted => exact .of_same rfl fun h => ⟨h.writer, h.readers⟩
  | aborted =>
    rw [abort_eq]
    refine .of_rests (.recordAll (fun e he => ?_) w.1) fun hd =>
      ⟨sound_shut hd.writer, fun r hr => absurd hr List.not_mem_nil⟩
    rcases List.mem_append.mp he with he | he
    · exact (List.mem_append.mp he).elim (harmless_closings e) (harmless_closings e)
    · exact List.mem_singleton.mp he ▸ trivial

lemma settles_openMigrated {schema : Schema} {settings : DatabaseSettings} {x x₀ : Exchange}
    {d : Database} (h : (openMigrated schema settings).run (x, ()) = (.ok d, x₀, ())) :
    ∃ d₀ : Database, d₀.Sound ∧ Settles (x, d₀) (x₀, d) := by
  obtain ⟨writer, x₁, readsApart, hconnect, hwalk⟩ := walks_openMigrated h
  obtain ⟨-, -, hevents⟩ := Connection.connect_eq_ok hconnect
  let d₀ : Database := { schema, settings, writer, readsApart }
  have hconnected : Settles (x, d₀) (x₁, d₀) := .of_rests (.of_connected hevents) id
  have hsound : d₀.Sound :=
    ⟨Connection.sound_of_connect hconnect, fun r hr => absurd hr List.not_mem_nil⟩
  exact ⟨d₀, hsound, hconnected.trans (hwalk.along fun _ _ => settles_step)⟩

theorem serve_quiet {schema : Schema} {settings : DatabaseSettings} {x x₀ : Exchange}
    {d : Database} (hopen : (openMigrated schema settings).run (x, ()) = (.ok d, x₀, ()))
    (tasks : List Task) {c : List Executed} {st : Store}
    (hruns : Store.Runs (.quiet c) (x.since (serve tasks (x₀, d)).1) st) :
    (serve tasks (x₀, d)).2.Sound ∧ ∃ c', st = .quiet c' := by
  obtain ⟨d₀, hd₀, hopened⟩ := settles_openMigrated hopen
  have hserved : Settles (x₀, d) (serve tasks (x₀, d)) :=
    (walks_serve tasks (x₀, d)).along fun _ _ => settles_step
  obtain ⟨hsound, new, hevents, hquiet⟩ := hopened.trans hserved hd₀
  rw [Exchange.since_eq hevents] at hruns
  exact ⟨hsound, hquiet c st hruns⟩

end Database

end Tablewright
