import Tablewright.Database.Query
import Tablewright.Proofs.Engine.Freshness
import Tablewright.Proofs.Outcome

namespace Tablewright

open Connection (Calm Commits Keeps Steady)

/-- What may have changed the schema between two states of an exchange, by the moment. -/
def Exchange.AlteredAt (ddl : Prop) (x x' : Exchange) (m : Nat) : Prop :=
  x.events.length ≤ m ∧ ∃ e, x'.events[m]? = some e ∧ e.Alters ddl

lemma Exchange.AlteredAt.lt {ddl : Prop} {x x' : Exchange} {m : Nat} (h : x.AlteredAt ddl x' m) :
    m < x'.events.length := by
  obtain ⟨-, e, he, -⟩ := h
  exact (List.getElem?_eq_some_iff.mp he).1

lemma Exchange.AlteredAt.le {ddl : Prop} {x x₁ x' : Exchange} {new later : List Event} {m : Nat}
    (h : x.AlteredAt ddl x' m) (hnew : x₁.events = x.events ++ new) (hcalm : ∀ e ∈ new, Calm e)
    (hlater : x'.events = x₁.events ++ later) : x₁.events.length ≤ m := by
  obtain ⟨hm, e, he, halters⟩ := h
  by_contra hlt
  rw [hlater, List.getElem?_append_left (by omega), hnew, List.getElem?_append_right hm] at he
  exact hcalm e (List.mem_of_getElem? he) (halters.mono fun _ => trivial)

namespace Database

variable {α β : Type} {ddl : Prop} {changes : Nat → Prop} {history : List Lookup}
  {w w₁ w₂ w₃ : Exchange × Database}

structure Warm (changes : Nat → Prop) (history : List Lookup) (d : Database) : Prop where
  writer : d.writer.Warm changes history
  readers : ∀ r ∈ d.readers, r.2.Warm changes history

/-- Handles stay fresh, with the schema changed by what happened: by scripts, and by what was
committed if that is `ddl`. -/
def Renews (ddl : Prop) (w w' : Exchange × Database) : Prop :=
  ∃ new asked, w'.1.events = w.1.events ++ new ∧ w'.1.lookups = w.1.lookups ++ asked ∧
    ∀ changes history, Fresh changes history w.1.events.length → w.2.Warm changes history →
      Fresh (fun m => changes m ∨ w.1.AlteredAt ddl w'.1 m) (history ++ asked) w'.1.events.length ∧
        w'.2.Warm (fun m => changes m ∨ w.1.AlteredAt ddl w'.1 m) (history ++ asked)

def Idle (x x' : Exchange) : Prop :=
  x'.lookups = x.lookups ∧ ∃ new, x'.events = x.events ++ new ∧ ∀ e ∈ new, Calm e

namespace Idle

variable {x x₁ x₂ : Exchange}

lemma refl (x : Exchange) : Idle x x := ⟨rfl, [], (List.append_nil _).symm, nofun⟩

lemma trans (h : Idle x x₁) (h' : Idle x₁ x₂) : Idle x x₂ := by
  obtain ⟨hlookups, new, hevents, hnew⟩ := h
  obtain ⟨hlookups', new', hevents', hnew'⟩ := h'
  refine ⟨hlookups'.trans hlookups, new ++ new', by rw [hevents', hevents, List.append_assoc],
    fun e he => ?_⟩
  exact (List.mem_append.mp he).elim (hnew e) (hnew' e)

lemma record {e : Event} (he : Calm e) (x : Exchange) : Idle x (x.record e) :=
  ⟨rfl, [e], rfl, fun _ hf => List.mem_singleton.mp hf ▸ he⟩

lemma connect (role : Role) (settings : DatabaseSettings) (x : Exchange) :
    Idle x ((Connection.connect role settings).run (x, ())).2.1 := by
  obtain ⟨n, ok, hevents⟩ := Connection.connect_events role settings x
  exact ⟨Connection.connect_lookups role settings x, _, hevents,
    fun _ he => List.mem_singleton.mp he ▸ id⟩

end Idle

lemma Renews.of_calm {new : List Event} {asked : List Lookup}
    (hevents : w₁.1.events = w.1.events ++ new) (hnew : ∀ e ∈ new, ¬ e.Alters ddl)
    (hlookups : w₁.1.lookups = w.1.lookups ++ asked)
    (h : ∀ changes history, Fresh changes history w.1.events.length → w.2.Warm changes history →
      Fresh changes (history ++ asked) w₁.1.events.length ∧
        w₁.2.Warm changes (history ++ asked)) : Renews ddl w w₁ := by
  refine ⟨new, asked, hevents, hlookups, fun changes history hfresh hwarm => ?_⟩
  have hsame : (fun m => changes m ∨ w.1.AlteredAt ddl w₁.1 m) = changes := by
    funext m
    refine propext (or_iff_left ?_)
    rintro ⟨hm, e, he, halters⟩
    rw [hevents, List.getElem?_append_right hm] at he
    exact hnew e (List.mem_of_getElem? he) halters
  rw [hsame]
  exact h changes history hfresh hwarm

namespace Renews

lemma of_idle (h : Idle w.1 w₁.1)
    (hwarm : ∀ changes history, w.2.Warm changes history → w₁.2.Warm changes history) :
    Renews ddl w w₁ := by
  obtain ⟨hlookups, new, hevents, hnew⟩ := h
  have hsame : w₁.1.lookups = w.1.lookups ++ [] := by rw [hlookups, List.append_nil]
  refine .of_calm hevents (fun e he h => hnew e he (h.mono fun _ => trivial)) hsame
    fun changes history hfresh hw => ?_
  rw [List.append_nil]
  refine ⟨hfresh.later ?_ fun m hm => Or.inl hm, hwarm changes history hw⟩
  rw [hevents, List.length_append]
  omega

lemma refl (w : Exchange × Database) : Renews ddl w w := .of_idle (.refl w.1) fun _ _ => id

lemma trans (h : Renews ddl w₁ w₂) (h' : Renews ddl w₂ w₃) : Renews ddl w₁ w₃ := by
  obtain ⟨new, asked, hevents, hlookups, hfresh⟩ := h
  obtain ⟨new', asked', hevents', hlookups', hfresh'⟩ := h'
  refine ⟨new ++ new', asked ++ asked', by rw [hevents', hevents, List.append_assoc],
    by rw [hlookups', hlookups, List.append_assoc], fun changes history hw hwarm => ?_⟩
  have hsame : (fun m => changes m ∨ w₁.1.AlteredAt ddl w₃.1 m) =
      fun m => (changes m ∨ w₁.1.AlteredAt ddl w₂.1 m) ∨ w₂.1.AlteredAt ddl w₃.1 m := by
    funext m
    rw [or_assoc]
    refine propext (or_congr_right ⟨?_, ?_⟩)
    · rintro ⟨hm, e, he, halters⟩
      by_cases hlt : m < w₂.1.events.length
      · rw [hevents', List.getElem?_append_left hlt] at he
        exact Or.inl ⟨hm, e, he, halters⟩
      · exact Or.inr ⟨by omega, e, he, halters⟩
    · rintro (h | ⟨hm, h⟩)
      · have hlt := h.lt
        obtain ⟨hm, e, he, halters⟩ := h
        exact ⟨hm, e, by rw [hevents', List.getElem?_append_left hlt, he], halters⟩
      · rw [hevents, List.length_append] at hm
        exact ⟨by omega, h⟩
  obtain ⟨hw, hwarm⟩ := hfresh changes history hw hwarm
  rw [hsame, ← List.append_assoc]
  exact hfresh' _ _ hw hwarm

lemma of_cleared {x₁ : Exchange} {c : Connection} (h : Keeps Calm (w.1, w.2.writer) (x₁, c))
    {later : List Event} (hevents : w₁.1.events = x₁.events ++ later)
    (hlookups : w₁.1.lookups = x₁.lookups)
    (hcleared : ∀ changes history, w₁.2.Warm changes history) : Renews ddl w w₁ := by
  obtain ⟨new, asked, hnew, hcalm, hasked, hfresh⟩ := h
  refine ⟨new ++ later, asked, by rw [hevents, hnew, List.append_assoc],
    by rw [hlookups, hasked], fun changes history hw hwarm => ⟨?_, hcleared _ _⟩⟩
  have hpast := (hfresh changes history hw hwarm.writer).1
  refine hpast.later ?_ fun m hm => hm.imp_right fun haltered => ⟨haltered.lt, fun p hp => ?_⟩
  · rw [hevents, List.length_append]
    exact Nat.le_add_right _ _
  · exact Nat.le_trans (hpast.bounded p hp) (haltered.le hnew hcalm hevents)

end Renews

def Renewing (ddl : Prop) (job : Job Database α) : Prop := ∀ w, Renews ddl w (job.run w).2

namespace Renewing

variable {job : Job Database α}

lemma pure (a : α) : Renewing ddl (Pure.pure a : Job Database α) := fun w => .refl w

lemma throw (e : Failure) : Renewing ddl (MonadExcept.throw e : Job Database α) := fun w => .refl w

lemma subject : Renewing ddl Job.subject := fun w => .refl w

lemma ofExcept {ε : Type} (wrap : ε → Failure) (r : Except ε α) :
    Renewing ddl (Job.ofExcept wrap r : Job Database α) := by
  intro w
  rw [Job.run_ofExcept]
  exact .refl w

lemma bind {next : α → Job Database β} (h : Renewing ddl job) (hnext : ∀ a, Renewing ddl (next a)) :
    Renewing ddl (job >>= next) := by
  intro w
  have hjob := h w
  rw [Job.run_bind]
  rcases hrun : job.run w with ⟨e | a, w'⟩
  · rw [hrun] at hjob
    exact hjob
  · rw [hrun] at hjob
    exact hjob.trans (hnext a w')

lemma reword (f : Failure → Failure) (h : Renewing ddl job) : Renewing ddl (Job.reword f job) := h

lemma modify {f : Exchange × Database → Exchange × Database} (hf : ∀ w, (f w).1 = w.1 ∧
    (f w).2.writer = w.2.writer ∧ (f w).2.readers = w.2.readers) :
    Renewing ddl (MonadState.modifyGet fun w => (⟨⟩, f w) : Job Database PUnit) := by
  intro w
  obtain ⟨hx, hwriter, hreaders⟩ := hf w
  refine .of_idle ?_ fun changes history hw => ⟨?_, ?_⟩
  · exact hx.symm ▸ .refl w.1
  · exact hwriter.symm ▸ hw.writer
  · exact hreaders.symm ▸ hw.readers

end Renewing

lemma renewing_ensureOpen : Renewing ddl ensureOpen := by
  refine .bind .subject fun d => ?_
  cases d.closed with
  | true => exact .throw _
  | false => exact .pure ()

lemma renews_writer {x : Exchange} {c : Connection}
    (h : Keeps (fun e => ¬ e.Alters ddl) (w.1, w.2.writer) (x, c)) :
    Renews ddl w (x, { w.2 with writer := c }) := by
  obtain ⟨new, asked, hevents, hnew, hlookups, hfresh⟩ := h
  refine .of_calm hevents hnew hlookups fun changes history hw hwarm => ?_
  obtain ⟨hw, hwriter⟩ := hfresh changes history hw hwarm.writer
  exact ⟨hw, hwriter, fun r hr => (hwarm.readers r hr).append asked⟩

lemma renewing_onWriter {job : Job Connection α}
    (h : ∀ w, Keeps (fun e => ¬ e.Alters ddl) w (job.run w).2) : Renewing ddl (onWriter job) := by
  intro w
  rw [onWriter, Job.run_within]
  exact renews_writer (h (w.1, w.2.writer))

lemma mem_putReader {slot : Nat} {c : Connection} {rs : List (Nat × Connection)}
    {r : Nat × Connection} (h : r ∈ putReader slot c rs) : r = (slot, c) ∨ r ∈ rs := by
  induction rs with
  | nil => exact Or.inl (List.mem_singleton.mp h)
  | cons s rs ih =>
    obtain ⟨n, old⟩ := s
    rw [putReader] at h
    split at h
    · next hn =>
      rcases List.mem_cons.mp h with rfl | h
      · exact Or.inl (by rw [hn])
      · exact Or.inr (List.mem_cons_of_mem _ h)
    · rcases List.mem_cons.mp h with rfl | h
      · exact Or.inr List.mem_cons_self
      · exact (ih h).imp_right (List.mem_cons_of_mem _)

lemma lookup_putReader (slot : Nat) (c : Connection) (rs : List (Nat × Connection)) :
    (putReader slot c rs).lookup slot = some c := by
  induction rs with
  | nil => simp [putReader]
  | cons r rs ih =>
    obtain ⟨n, old⟩ := r
    rw [putReader]
    split
    · next hn => simp [hn]
    · next hn => rw [List.lookup_cons, beq_false_of_ne (Ne.symm hn), ih]

lemma run_readerConnection (slot : Nat) (x : Exchange) (d : Database) :
    (readerConnection slot).run (x, d) =
      match d.readers.lookup slot with
      | some c => (.ok c, x, d)
      | none =>
        match (Connection.connect .reader d.settings).run (x, ()) with
        | (.ok c, x', _) => (.ok c, x', { d with readers := putReader slot c d.readers })
        | (.error e, x', _) => (.error e, x', d) := by
  simp only [readerConnection, Job.run_bind, Job.run_get]
  cases d.readers.lookup slot with
  | some c => rfl
  | none =>
    simp only
    generalize (Connection.connect .reader d.settings).run (x, ()) = made
    obtain ⟨e | c, x', u⟩ := made
    · rfl
    · rfl

lemma renews_readerConnection (ddl : Prop) (slot : Nat) (w : Exchange × Database) :
    Renews ddl w ((readerConnection slot).run w).2 ∧
      ∀ c, ((readerConnection slot).run w).1 = .ok c →
        ((readerConnection slot).run w).2.2.readers.lookup slot = some c := by
  obtain ⟨x, d⟩ := w
  rw [run_readerConnection]
  cases hlookup : d.readers.lookup slot with
  | some c => exact ⟨.refl _, fun _ h => Except.ok.inj h ▸ hlookup⟩
  | none =>
    have hidle := Idle.connect .reader d.settings x
    simp only
    rcases hconnect : (Connection.connect .reader d.settings).run (x, ()) with ⟨e | c, x', ⟨⟩⟩
    · rw [hconnect] at hidle
      refine ⟨.of_idle hidle fun _ _ => id, fun c hc => ?_⟩
      cases hc
    · rw [hconnect] at hidle
      have hempty : c.cache.handles = [] := (Connection.connect_eq_ok hconnect).1
      refine ⟨.of_idle hidle fun changes history hw => ⟨hw.writer, fun r hr => ?_⟩, ?_⟩
      · rcases mem_putReader hr with rfl | hr
        · intro h hh
          rw [hempty] at hh
          cases hh
        · exact hw.readers r hr
      · rintro _ ⟨⟩
        exact lookup_putReader slot c d.readers

lemma renewing_onReader (slot : Nat) {job : Job Connection α}
    (h : ∀ w, Keeps (fun e => ¬ e.Alters ddl) w (job.run w).2) :
    Renewing ddl (onReader slot job) := by
  intro w
  obtain ⟨hconnection, hlookup⟩ := renews_readerConnection ddl slot w
  rw [onReader, Job.run_bind]
  rcases hrun : (readerConnection slot).run w with ⟨e | c, x, d⟩
  · rw [hrun] at hconnection
    exact hconnection
  · rw [hrun] at hconnection hlookup
    have hc : d.readers.lookup slot = some c := hlookup c rfl
    obtain ⟨new, asked, hevents, hnew, hlookups, hfresh⟩ := h (x, c)
    refine hconnection.trans ?_
    simp only [Job.run_within, hc, Option.getD_some]
    refine .of_calm hevents hnew hlookups fun changes history hw hwarm => ?_
    obtain ⟨hw, hreader⟩ := hfresh changes history hw (hwarm.readers _ (mem_of_lookup hc))
    refine ⟨hw, hwarm.writer.append asked, fun r hr => ?_⟩
    rcases mem_putReader hr with rfl | hr
    · exact hreader
    · exact (hwarm.readers r hr).append asked

lemma warm_cleared (d : Database) (changes : Nat → Prop) (history : List Lookup) :
    Warm changes history { d with
      writer := clearCache d.writer
      readers := d.readers.map fun r => (r.1, clearCache r.2) } := by
  refine ⟨nofun, fun r hr => ?_⟩
  obtain ⟨s, -, rfl⟩ := List.mem_map.mp hr
  nofun

lemma renewing_change (ddl : Prop) (c : Compiled) (given : Supplied) (hddl : c.isDdl = true) :
    Renewing ddl (do
      let result ← onWriter (Connection.write c given)
      if c.isDdl then Job.sure invalidateCaches
      return result) := by
  intro w
  have hwrite := Connection.commits_write c given (w.1, w.2.writer)
  simp only [Job.run_bind, onWriter, Job.run_within, hddl, if_true]
  rcases hrun : (Connection.write c given).run (w.1, w.2.writer) with ⟨e | result, x, k⟩
  · rw [hrun] at hwrite
    exact renews_writer (hwrite.keeps fun _ => ⟨e, rfl⟩)
  · rw [hrun] at hwrite
    obtain ⟨w₁, hkeeps, hsteady⟩ := hwrite
    obtain ⟨later, hevents, -⟩ := hsteady.events
    exact .of_cleared hkeeps hevents hsteady.lookups fun _ _ => warm_cleared _ _ _

lemma renewing_cleared {job : Job Connection α} (h : Connection.Steadily (fun _ => True) job) :
    Renewing ddl (Job.ensuring (onWriter job) invalidateCaches) := by
  intro w
  have hsteady := h (w.1, w.2.writer)
  obtain ⟨later, hevents, -⟩ := hsteady.events
  exact .of_cleared (Steady.refl _).keeps hevents hsteady.lookups fun _ _ => warm_cleared _ _ _

lemma renewing_migrate : Renewing ddl migrate := by
  refine .bind .subject fun d => .bind (.reword _ ?_) fun plan => ?_
  · exact .bind renewing_ensureOpen fun _ =>
      renewing_cleared (Connection.steadily_migrate d.schema d.settings.readOnly)
  · exact .bind (.modify fun w => ⟨rfl, rfl, rfl⟩) fun _ => .pure plan

lemma renewing_runBatch (script : String) : Renewing ddl (runBatch script) := by
  refine .bind renewing_ensureOpen fun _ => renewing_cleared ?_
  exact .ensuring (Connection.steadily_runScript script) fun _ => trivial

lemma renewing_submit {job : Job Connection α} (h : ∀ w, Keeps Calm w (job.run w).2) :
    Renewing ddl (submit job) := by
  refine .bind renewing_ensureOpen fun _ => renewing_onWriter fun w => (h w).mono fun e he h => ?_
  exact he (h.mono fun _ => trivial)

lemma renewing_catalog : Renewing ddl catalog :=
  renewing_submit fun w => (Connection.steadily_readCatalogOnly w).keeps

lemma renewing_run (c : Compiled) (given : Supplied) (slot : Nat) :
    Renewing (c.isDdl = true) (run c given slot) := by
  have hread : ∀ given w, Keeps (fun e => ¬ e.Alters (c.isDdl = true)) w
      ((Connection.read c given).run w).2 := fun given w =>
    (Connection.keeps_read c given w).mono fun e he h => he (h.mono fun _ => trivial)
  refine .bind (.ofExcept _ _) fun values => .bind renewing_ensureOpen fun _ => ?_
  split
  · cases hddl : c.isDdl with
    | true =>
      have hchange := renewing_change (c.isDdl = true) c (.sequence values) hddl
      rwa [hddl] at hchange
    | false =>
      refine .bind (renewing_onWriter fun w => ?_) fun result => .pure result
      exact (Connection.commits_write c (.sequence values) w).keeps nofun
  · refine .bind .subject fun d => ?_
    split
    · exact renewing_onReader slot (hread _)
    · exact renewing_onWriter (hread _)

def shut (k : Connection) : Connection :=
  if k.closed then k else { k with cache := k.cache.clear, closed := true }

def closings (ks : List Connection) : List Event :=
  (ks.filter (!·.closed)).map fun k => .closed k.number

lemma run_close (x : Exchange) (k : Connection) :
    Connection.close.run (x, k) = ((), x.recordAll (closings [k]), shut k) := by
  obtain ⟨role, settings, number, generation, cache, closed⟩ := k
  cases closed with
  | true => exact congrArg (fun x => ((), x, _)) x.recordAll_nil.symm
  | false => rfl

lemma closeReaders_eq (readers : List (Nat × Connection)) (x : Exchange)
    (closed : List Connection) :
    (readers.foldl (fun w r => (w.1.recordAll (closings [r.2]), w.2 ++ [shut r.2]))
      (x, closed)).1 = x.recordAll (closings (readers.map (·.2))) := by
  induction readers generalizing x closed with
  | nil => exact x.recordAll_nil.symm
  | cons r rs ih =>
    have hcons : closings ((r :: rs).map (·.2)) = closings [r.2] ++ closings (rs.map (·.2)) := by
      rw [closings, closings, closings, ← List.map_append, ← List.filter_append]
      rfl
    rw [List.foldl_cons, ih, Exchange.recordAll_recordAll, hcons]

def partings (d : Database) : List Event :=
  closings (d.readers.map (·.2)) ++ closings [d.writer] ++ [.disposed]

lemma abort_eq (x : Exchange) (d : Database) :
    abort (x, d) = ((), x.recordAll (partings d),
      { d with readers := [], writer := shut d.writer, readsApart := false, closed := true }) := by
  have habort : abort (x, d) =
      let x₁ := (d.readers.foldl (fun w r =>
        ((Connection.close.run (w.1, r.2)).2.1, w.2 ++ [(Connection.close.run (w.1, r.2)).2.2]))
        (x, ([] : List Connection))).1
      ((), (Connection.close.run (x₁, d.writer)).2.1.recordAll [.disposed],
        { d with
          readers := []
          writer := (Connection.close.run (x₁, d.writer)).2.2
          readsApart := false
          closed := true }) := rfl
  simp only [habort, run_close, closeReaders_eq, Exchange.recordAll_recordAll, partings,
    List.append_assoc]

lemma close_eq (w : Exchange × Database) : close w = if w.2.closed then ((), w) else abort w := by
  obtain ⟨x, schema, settings, writer, readers, readsApart, shapes, closed, lastMigration⟩ := w
  cases closed <;> rfl

lemma warm_shut {k : Connection} (h : k.Warm changes history) :
    (shut k).Warm changes history := by
  rw [shut]
  split
  · exact h
  · nofun

lemma renews_abort (x : Exchange) (d : Database) : Renews ddl (x, d) (abort (x, d)).2 := by
  rw [abort_eq]
  refine .of_idle ⟨rfl, _, rfl, fun e he => ?_⟩ fun changes history hw =>
    ⟨warm_shut hw.writer, fun r hr => absurd hr List.not_mem_nil⟩
  rcases List.mem_append.mp he with he | he
  · rcases List.mem_append.mp he with he | he <;> obtain ⟨k, -, rfl⟩ := List.mem_map.mp he
    · exact id
    · exact id
  · exact List.mem_singleton.mp he ▸ id

lemma renewing_close : Renewing ddl (Job.sure close) := by
  intro w
  rw [Job.run_sure, close_eq]
  split
  · exact .refl w
  · exact renews_abort w.1 w.2

end Database

end Tablewright
