import Tablewright.Proofs.Database.Write

namespace Tablewright

inductive ScriptPart where
  | begin
  | commit
  | rollback
  | work (sql : String)
deriving DecidableEq, Repr

namespace Session

variable {n : Nat} {s s' : Session} {parts : List ScriptPart} {c c' : List Executed}

def enact : Session → ScriptPart → Option Session
  | ⟨c, none⟩, .begin => some ⟨c, some []⟩
  | ⟨c, some p⟩, .commit => some ⟨c ++ p, none⟩
  | ⟨c, some _⟩, .rollback => some ⟨c, none⟩
  | ⟨c, none⟩, .work sql => some ⟨c ++ [⟨sql, []⟩], none⟩
  | ⟨c, some p⟩, .work sql => some ⟨c, some (p ++ [⟨sql, []⟩])⟩
  | _, _ => none

def enactAll (s : Session) (parts : List ScriptPart) : Option Session := parts.foldlM enact s

/-- How a session takes a script: what was pending is committed first. A script that stops has run
up to one of its statements, which may leave any transaction, or none. -/
inductive Takes (parts : List ScriptPart) : Session → Bool → Session → Prop
  | done {c p s} : enactAll ⟨c ++ p.getD [], none⟩ parts = some s → Takes parts ⟨c, p⟩ true s
  | stopped {c p ran part rest c' q q'} : parts = ran ++ part :: rest →
      enactAll ⟨c ++ p.getD [], none⟩ ran = some ⟨c', q⟩ → Takes parts ⟨c, p⟩ false ⟨c', q'⟩
  | unstarted {c p p'} : Takes parts ⟨c, p⟩ false ⟨c, p'⟩

def StepBy (split : String → List ScriptPart) (n : Nat) (s : Session) (e : Event)
    (s' : Session) : Prop :=
  Step n s e s' ∧ ∀ text ok, e = .ranScript n text ok → Takes (split text) s ok s'

def RunsBy (split : String → List ScriptPart) (n : Nat) : Session → List Event → Session → Prop
  | s, [], s' => s' = s
  | s, e :: rest, s' => ∃ m, StepBy split n s e m ∧ RunsBy split n m rest s'

lemma runsBy_script {split : String → List ScriptPart} {text : String} {ok : Bool} :
    RunsBy split n s [.ranScript n text ok, .rolledBack n] s' ↔
      ∃ c p, Takes (split text) s ok ⟨c, p⟩ ∧ s' = ⟨c, none⟩ := by
  constructor
  · rintro ⟨⟨c, p⟩, ⟨-, htakes⟩, _, ⟨hback, -⟩, rfl⟩
    exact ⟨c, p, htakes text ok rfl, hback.of_rolledBack⟩
  · rintro ⟨c, p, htakes, rfl⟩
    refine ⟨⟨c, p⟩, ⟨.ranScript, ?_⟩, ⟨c, none⟩, ⟨.rolledBack, nofun⟩, rfl⟩
    rintro _ _ ⟨⟩
    exact htakes

lemma runsBy_stopped_iff {split : String → List ScriptPart} {text : String} :
    (∃ s, RunsBy split n ⟨c, none⟩ [.ranScript n text false, .rolledBack n] s ∧ s.committed = c') ↔
      c' = c ∨ ∃ ran part rest q, split text = ran ++ part :: rest ∧
        enactAll ⟨c, none⟩ ran = some ⟨c', q⟩ := by
  constructor
  · rintro ⟨s, hruns, rfl⟩
    obtain ⟨c', p, htakes, rfl⟩ := runsBy_script.mp hruns
    cases htakes with
    | stopped hparts hran =>
      rw [Option.getD_none, List.append_nil] at hran
      exact Or.inr ⟨_, _, _, _, hparts, hran⟩
    | unstarted => exact Or.inl rfl
  · rintro (rfl | ⟨ran, part, rest, q, hparts, hran⟩)
    · exact ⟨_, runsBy_script.mpr ⟨c', none, .unstarted, rfl⟩, rfl⟩
    · rw [← List.append_nil c] at hran
      exact ⟨_, runsBy_script.mpr ⟨c', none, .stopped (p := none) hparts hran, rfl⟩, rfl⟩

lemma committed_of_enactAll {p : List Executed} (h : enactAll ⟨c, some p⟩ parts = some s)
    (hcommit : .commit ∉ parts) (hrollback : .rollback ∉ parts) : s.committed = c := by
  induction parts generalizing p with
  | nil => exact congrArg Session.committed (Option.some.inj h).symm
  | cons part parts ih =>
    cases part with
    | begin => cases h
    | commit => exact absurd List.mem_cons_self hcommit
    | rollback => exact absurd List.mem_cons_self hrollback
    | work sql =>
      exact ih (p := p ++ [⟨sql, []⟩]) h (fun hm => hcommit (List.mem_cons_of_mem _ hm))
        fun hm => hrollback (List.mem_cons_of_mem _ hm)

theorem committed_of_begun {body ran rest : List ScriptPart} {last part : ScriptPart}
    {q : Option (List Executed)} (hparts : .begin :: body ++ [last] = ran ++ part :: rest)
    (hran : enactAll ⟨c, none⟩ ran = some ⟨c', q⟩) (hcommit : .commit ∉ body)
    (hrollback : .rollback ∉ body) : c' = c := by
  cases ran with
  | nil => exact (congrArg Session.committed (Option.some.inj hran)).symm
  | cons first ran =>
    obtain ⟨rfl, htail⟩ := List.cons.inj hparts
    -- the last statement is not among those that have run
    have hdone : ran <+: body := by
      rcases List.append_eq_append_iff.mp htail with ⟨more, rfl, hlast⟩ | ⟨more, rfl, -⟩
      · cases more with
        | nil => simp
        | cons other more => simp at hlast
      · exact List.prefix_append ran more
    exact committed_of_enactAll (s := ⟨c', q⟩) (p := []) hran (fun h => hcommit (hdone.subset h))
      fun h => hrollback (hdone.subset h)

end Session

def Event.Ends (n : Nat) : Event → Prop
  | committed m _ | rolledBack m => m = n
  | _ => False

/-- Every script runs in a transaction that was begun for it and that is ended once. -/
def Enclosed (n : Nat) (es : List Event) : Prop :=
  ∀ front text ok back, es = front ++ .ranScript n text ok :: back →
    (∃ before after, front = before ++ .executed n Connection.beginText [] true :: after ∧
      ∀ e ∈ after, ¬ e.Ends n) ∧
    ∃ before e after, back = before ++ e :: after ∧ e.Ends n ∧ ∀ f ∈ before ++ after, ¬ f.Ends n

namespace Database

open Session (RunsBy enactAll)

lemma run_runBatch_closed (script : String) {w : Exchange × Database} (h : w.2.closed = true) :
    (runBatch script).run w = (.error (.execution .closed), w) := by
  rw [runBatch, Job.run_bind, run_ensureOpen, h]
  rfl

lemma run_runBatch_open (script : String) {w : Exchange × Database} (h : w.2.closed = false) :
    ∃ ok, ((runBatch script).run w).2.1.events =
        w.1.events ++ [.ranScript w.2.writer.number script ok, .rolledBack w.2.writer.number] ∧
      (ok = true ↔ ((runBatch script).run w).1 = .ok ()) := by
  obtain ⟨x, d⟩ := w
  have hevents := x.ask_events .script (.ranScript d.writer.number script)
  have hrun := Connection.run_runScript script x d.writer
  rw [runBatch, Job.run_bind, run_ensureOpen, h]
  simp only [Bool.false_eq_true, if_false, Job.run_ensuring, onWriter, Job.run_within]
  generalize x.ask .script (.ranScript d.writer.number script) = asked at hevents hrun
  obtain ⟨reply, x'⟩ := asked
  refine ⟨reply.failure?.isNone, ?_⟩
  cases hreply : reply.failure? with
  | none =>
    simp only [hreply] at hevents hrun
    rw [hrun]
    exact ⟨(congrArg (· ++ [Event.rolledBack d.writer.number]) hevents).trans (by simp), by simp⟩
  | some message =>
    simp only [hreply] at hevents hrun
    rw [hrun]
    exact ⟨(congrArg (· ++ [Event.rolledBack d.writer.number]) hevents).trans (by simp), by simp⟩

lemma enclosed_nil (n : Nat) : Enclosed n [] := by
  intro front text ok back h
  simp at h

lemma not_enclosed {n : Nat} {text : String} {ok : Bool} {back : List Event} :
    ¬ Enclosed n (.ranScript n text ok :: back) := by
  intro h
  obtain ⟨⟨before, after, hfront, -⟩, -⟩ := h [] text ok back rfl
  simp at hfront

/-- A script is enclosed in a transaction of its own on a closed database only, which does not give
it to the engine. If the script stops, any number of its statements may have been done, and what
they have committed is there to stay. -/
theorem runBatch_exposed {schema : Schema} {settings : DatabaseSettings} {x x₀ : Exchange}
    {d : Database} (hopen : (openMigrated schema settings).run (x, ()) = (.ok d, x₀, ()))
    (tasks : List Task) (split : String → List ScriptPart) (script : String)
    {before : List Executed} {st : Store} :
    let w := serve tasks (x₀, d)
    let n := w.2.writer.number
    let after := (runBatch script).run w
    Store.Runs (.quiet before) (x.since w.1) st →
    (Enclosed n (w.1.since after.2.1) ↔ w.2.closed = true) ∧
      ∀ e, after.1 = .error e → ∀ c,
        (∃ s, RunsBy split n (st.session n) (w.1.since after.2.1) s ∧ s.committed = c) ↔
          c = st.committed ∨ w.2.closed = false ∧ ∃ ran part rest q,
            split script = ran ++ part :: rest ∧
              enactAll ⟨st.committed, none⟩ ran = some ⟨c, q⟩ := by
  intro w n after hst
  obtain ⟨-, c₀, rfl⟩ := serve_quiet hopen tasks hst
  cases hclosed : w.2.closed with
  | true =>
    have hsince : w.1.since after.2.1 = [] := by
      rw [show after = _ from run_runBatch_closed script hclosed,
        Exchange.since_eq (List.append_nil _).symm]
    rw [hsince]
    refine ⟨iff_of_true (enclosed_nil n) rfl, fun e _ c => ?_⟩
    constructor
    · rintro ⟨s, rfl, rfl⟩
      exact Or.inl rfl
    · rintro (rfl | ⟨hcontra, -⟩)
      · exact ⟨_, rfl, rfl⟩
      · cases hcontra
  | false =>
    obtain ⟨ok, hevents, hok⟩ := run_runBatch_open script hclosed
    rw [Exchange.since_eq hevents]
    refine ⟨iff_of_false not_enclosed nofun, fun e he c => ?_⟩
    have hraised : ok = false := by
      cases ok with
      | false => rfl
      | true => cases he.symm.trans (hok.mp rfl)
    rw [hraised]
    refine Session.runsBy_stopped_iff.trans (or_congr_right ?_)
    exact (and_iff_right rfl).symm

namespace Torn

def engine : Exchange where
  replies
    | .script => [.failed "near \"nonsense\": syntax error"]
    | _ => []

def bare : String := "DELETE FROM note; nonsense"

def begun : String := "BEGIN; DELETE FROM note; nonsense"

def parts (text : String) : List ScriptPart :=
  if text = begun then [.begin, .work "DELETE FROM note", .work "nonsense"]
  else [.work "DELETE FROM note", .work "nonsense"]

end Torn

theorem runBatch_exposed_begun : ∃ d x st e,
    (openMigrated {} {}).run (Torn.engine, ()) = (.ok d, x, ()) ∧
      Store.Runs (.quiet []) (Torn.engine.since x) st ∧
      ((runBatch Torn.begun).run (x, d)).1 = .error e ∧
      ¬ Enclosed d.writer.number (x.since ((runBatch Torn.begun).run (x, d)).2.1) ∧
      ∀ s, RunsBy Torn.parts d.writer.number (st.session d.writer.number)
        (x.since ((runBatch Torn.begun).run (x, d)).2.1) s → s.committed = st.committed := by
  obtain ⟨d, x, e, hopen, hclosed, hraised⟩ : ∃ d x e,
      (openMigrated {} {}).run (Torn.engine, ()) = (.ok d, x, ()) ∧ d.closed = false ∧
        ((runBatch Torn.begun).run (x, d)).1 = .error e := ⟨_, _, _, rfl, rfl, rfl⟩
  obtain ⟨st, hst⟩ := Store.exists_runs (.quiet []) (Torn.engine.since x)
  obtain ⟨hexposed, hleft⟩ := runBatch_exposed hopen [] Torn.parts Torn.begun hst
  refine ⟨d, x, st, e, hopen, hst, hraised, fun h => ?_, fun s hs => ?_⟩
  · cases hclosed.symm.trans (hexposed.mp h)
  · obtain hsame | ⟨-, ran, part, rest, q, hparts, hran⟩ :=
      (hleft e hraised s.committed).mp ⟨s, hs, rfl⟩
    · exact hsame
    · have hbegun : ScriptPart.begin :: [.work "DELETE FROM note"] ++ [.work "nonsense"] =
          ran ++ part :: rest := hparts
      exact Session.committed_of_begun hbegun hran (by decide) (by decide)

/-- Nothing is begun for a script, and what it did before it stopped is there to stay. -/
theorem runBatch_committed : ∃ d x st s e,
    (openMigrated {} {}).run (Torn.engine, ()) = (.ok d, x, ()) ∧
      Store.Runs (.quiet []) (Torn.engine.since x) st ∧
      ((runBatch Torn.bare).run (x, d)).1 = .error e ∧
      RunsBy Torn.parts d.writer.number (st.session d.writer.number)
        (x.since ((runBatch Torn.bare).run (x, d)).2.1) s ∧
      ¬ Enclosed d.writer.number (x.since ((runBatch Torn.bare).run (x, d)).2.1) ∧
      s.committed ≠ st.committed := by
  obtain ⟨d, x, e, hopen, hclosed, hraised, hevents⟩ : ∃ d x e,
      (openMigrated {} {}).run (Torn.engine, ()) = (.ok d, x, ()) ∧ d.closed = false ∧
        ((runBatch Torn.bare).run (x, d)).1 = .error e ∧
        x.since ((runBatch Torn.bare).run (x, d)).2.1 =
          [.ranScript d.writer.number Torn.bare false, .rolledBack d.writer.number] :=
    ⟨_, _, _, rfl, rfl, rfl, rfl⟩
  obtain ⟨st, hst⟩ := Store.exists_runs (.quiet []) (Torn.engine.since x)
  obtain ⟨-, c, rfl⟩ := serve_quiet hopen [] hst
  have hran : ∃ ran part rest q, Torn.parts Torn.bare = ran ++ part :: rest ∧
      enactAll ⟨c, none⟩ ran = some ⟨c ++ [⟨"DELETE FROM note", []⟩], q⟩ :=
    ⟨[.work "DELETE FROM note"], .work "nonsense", [], none, rfl, rfl⟩
  obtain ⟨s, hs, hcommitted⟩ :=
    Session.runsBy_stopped_iff (n := d.writer.number).mpr (Or.inr hran)
  refine ⟨d, x, _, s, e, hopen, hst, hraised, hevents ▸ hs, hevents ▸ not_enclosed, ?_⟩
  rw [hcommitted]
  exact fun hsame => absurd (congrArg List.length hsame) (by simp [Store.quiet])

end Database

end Tablewright
