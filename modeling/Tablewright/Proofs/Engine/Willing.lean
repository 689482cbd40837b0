import Tablewright.Proofs.Engine.Attempts
import Tablewright.Proofs.Engine.Course

namespace Tablewright

def Exchange.Willing (x : Exchange) : Prop := ∀ r, ∀ reply ∈ x.replies r, reply.failure? = none

namespace Exchange.Willing

variable {x : Exchange}

lemma reply (h : x.Willing) (r : Request) (i : Nat) : (x.reply r i).failure? = none := by
  rw [Exchange.reply]
  cases hi : (x.replies r)[i]? with
  | none => rfl
  | some reply => exact h r reply (List.mem_of_getElem? hi)

lemma ask (h : x.Willing) (r : Request) (event : Bool → Event) : (x.ask r event).2.Willing := by
  intro q reply hmem
  refine h q reply ?_
  cases hr : x.replies r with
  | nil => simpa [Exchange.ask, answer, hr, record] using hmem
  | cons first rest =>
    simp only [Exchange.ask, answer, hr, record] at hmem
    split at hmem
    · next hq => exact hq ▸ hr ▸ List.mem_cons_of_mem first hmem
    · exact hmem

end Exchange.Willing

namespace Job

variable {σ α β : Type}

def Succeeds (job : Job σ α) : Prop :=
  ∀ w, w.1.Willing → ∃ a w', job.run w = (.ok a, w') ∧ w'.1.Willing

namespace Succeeds

variable {job : Job σ α}

lemma pure (a : α) : Succeeds (Pure.pure a : Job σ α) := fun w hw => ⟨a, w, rfl, hw⟩

lemma bind {next : α → Job σ β} (h : Succeeds job) (hnext : ∀ a, Succeeds (next a)) :
    Succeeds (job >>= next) := by
  intro w hw
  obtain ⟨a, w', hrun, hw'⟩ := h w hw
  rw [run_bind, hrun]
  exact hnext a w' hw'

lemma undoing (h : Succeeds job) (undo : Sure σ Unit) : Succeeds (Job.undoing job undo) := by
  intro w hw
  obtain ⟨a, w', hrun, hw'⟩ := h w hw
  rw [run_undoing, hrun]
  exact ⟨a, w', rfl, hw'⟩

lemma ensuring (h : Succeeds job) {after : Sure σ Unit}
    (hafter : ∀ w, w.1.Willing → (after w).2.1.Willing) : Succeeds (Job.ensuring job after) := by
  intro w hw
  obtain ⟨a, w', hrun, hw'⟩ := h w hw
  rw [run_ensuring, hrun]
  exact ⟨a, (after w').2, rfl, hafter w' hw'⟩

lemma reword (h : Succeeds job) (f : Failure → Failure) : Succeeds (Job.reword f job) := by
  intro w hw
  obtain ⟨a, w', hrun, hw'⟩ := h w hw
  rw [run_reword, hrun]
  exact ⟨a, w', rfl, hw'⟩

end Succeeds

end Job

namespace Connection

open Job (Succeeds)

variable {α : Type}

lemma succeeds_tryBegin {x : Exchange} (c : Connection) (hx : x.Willing) :
    ∃ x', tryBegin.run (x, c) = (.ok none, x', c) ∧ x'.Willing := by
  have hreply := hx.reply .begin 0
  refine ⟨_, ?_, hx.ask .begin (.executed c.number beginText [])⟩
  rw [run_tryBegin]
  dsimp only
  rw [x.ask_fst, hreply]

lemma succeeds_takeLock : Succeeds takeLock := by
  rintro ⟨x, c⟩ hx
  obtain ⟨x', hrun, hx'⟩ := succeeds_tryBegin c hx
  exact ⟨(), (x', c), run_beginFrom_of_taken 0 c.settings.maxRetries hrun, hx'⟩

lemma succeeds_execute (h : Handle String) (values : List Value) :
    Succeeds (execute h values) := by
  rintro ⟨x, c⟩ hx
  have hreply := hx.reply (requestOf h.sql) 0
  have hwilling := hx.ask (requestOf h.sql) (.executed c.number h.sql values)
  rw [run_execute]
  dsimp only
  rw [x.ask_fst]
  cases hanswer : x.reply (requestOf h.sql) 0 with
  | done count => exact ⟨_, _, rfl, hwilling⟩
  | rows columns rows => exact ⟨_, _, rfl, hwilling⟩
  | failed message =>
    rw [hanswer] at hreply
    cases hreply

lemma succeeds_commit : Succeeds commit := by
  rintro ⟨x, c⟩ hx
  have hreply := hx.reply .commit 0
  refine ⟨(), (_, c), ?_, hx.ask .commit (.committed c.number)⟩
  rw [run_commit]
  dsimp only
  rw [x.ask_fst, hreply]

lemma run_inTransaction_of_ok {work : Job Connection α} {w w₁ w₂ w₃ : Exchange × Connection} {a : α}
    (hlock : takeLock.run w = (.ok (), w₁)) (hwork : work.run w₁ = (.ok a, w₂))
    (hcommit : commit.run w₂ = (.ok (), w₃)) : (inTransaction work).run w = (.ok a, w₃) := by
  rw [inTransaction, Job.run_bind_of_ok hlock, Job.run_undoing, Job.run_bind_of_ok hwork,
    Job.run_bind_of_ok hcommit]
  rfl

lemma succeeds_inTransaction {work : Job Connection α} (h : Succeeds work) :
    Succeeds (inTransaction work) :=
  succeeds_takeLock.bind fun _ =>
    .undoing (h.bind fun a => succeeds_commit.bind fun _ => .pure a) rollback

lemma succeeds_prepared (sql : String) : Succeeds (prepared sql) := by
  rintro ⟨x, c⟩ hx
  rw [run_prepared]
  cases c.cache.handles.lookup sql with
  | none => exact ⟨_, _, rfl, hx⟩
  | some h => exact ⟨_, _, rfl, hx⟩

lemma succeeds_run {compiled : Compiled} {given : Supplied} {values : List Value}
    (h : compiled.bind given = .ok values) : Succeeds (run compiled given) := by
  rw [run, h]
  exact (succeeds_prepared compiled.sql).bind fun handle => succeeds_execute handle values

lemma succeeds_write {compiled : Compiled} {given : Supplied} {values : List Value}
    (h : compiled.bind given = .ok values) : Succeeds (write compiled given) := by
  rw [write, h]
  exact succeeds_inTransaction (succeeds_run (Compiled.bind_sequence h))

lemma succeeds_read {compiled : Compiled} {given : Supplied} {values : List Value}
    (h : compiled.bind given = .ok values) : Succeeds (read compiled given) :=
  (succeeds_run h).ensuring fun _ hw => hw

lemma succeeds_apply (ds : List Ddl) : Succeeds (apply ds) := by
  induction ds with
  | nil => exact .pure ()
  | cons d ds ih =>
    intro w hw
    have hfirst := succeeds_execute ⟨d.text, w.2.generation⟩ []
    exact (hfirst.reword (ddlFailure d.text)).bind (fun _ => ih) w hw

section Found

variable {w : Exchange × Connection} {tables : List InspectedTable} {declared : Schema}
  {plan : Plan}

lemma run_readCatalog_of_found (h : w.1.inspections.headD (.tables []) = .tables tables) :
    readCatalog.run w = (.ok (.ofInspected tables), (w.1.inspect w.2.number).2, w.2) := by
  obtain ⟨x, c⟩ := w
  rw [run_readCatalog, x.inspect_found, h]

lemma run_migrate_of_willing {readOnly : Bool} (hw : w.1.Willing)
    (hfound : w.1.inspections.headD (.tables []) = .tables tables)
    (hplan : reconcile declared (.ofInspected tables) = .ok plan)
    (hreadOnly : readOnly = true → plan.operations = []) :
    ∃ w', (migrate declared readOnly).run w = (.ok plan, w') := by
  cases readOnly with
  | true =>
    have hnone : plan.statements = [] := by rw [Plan.statements, hreadOnly rfl, List.map_nil]
    rw [migrate, if_pos rfl, Job.run_bind, run_readCatalogOnly, run_readCatalog_of_found hfound]
    dsimp only
    rw [Job.run_ofExcept_bind_of_ok hplan, hnone]
    exact ⟨_, rfl⟩
  | false =>
    obtain ⟨⟨⟩, w₁, hlock, hw₁⟩ := succeeds_takeLock w hw
    have hsame : w₁.1.inspections = w.1.inspections := by
      have := sameLooks_locks.takeLock w
      rwa [hlock] at this
    have hread := run_readCatalog_of_found (hsame ▸ hfound)
    -- the engine is as willing after the look at the catalog as it was before
    obtain ⟨⟨⟩, w₂, happly, hw₂⟩ :=
      succeeds_apply plan.operations ((w₁.1.inspect w₁.2.number).2, w₁.2) hw₁
    obtain ⟨⟨⟩, w₃, hcommit, -⟩ := succeeds_commit w₂ hw₂
    refine ⟨w₃, ?_⟩
    rw [migrate, if_neg Bool.false_ne_true]
    refine run_inTransaction_of_ok hlock ?_ hcommit
    rw [Job.run_bind_of_ok hread, Job.run_ofExcept_bind_of_ok hplan, Job.run_bind_of_ok happly]
    rfl

end Found

end Connection

end Tablewright
