import Tablewright.Proofs.Engine.Job
import Tablewright.Proofs.Outcome

/-! What holds along the requests of a transaction holds along the transaction: one lemma for each
job that takes the lock, looks at the catalog or commits, over any relation that allows the requests
themselves. -/

namespace Tablewright

namespace Connection

open Job (Moves)

variable {α : Type} {R : Exchange × Connection → Exchange × Connection → Prop}

structure Locks (R : Exchange × Connection → Exchange × Connection → Prop) : Prop where
  begun : ∀ x c, R (x, c) ((x.ask .begin (.executed c.number beginText [])).2, c)
  rolledBack : ∀ x c, R (x, c) (x.record (.rolledBack c.number), c)
  slept : ∀ x c delay, R (x, c) (x.record (.slept delay), c)

structure Transacts (R : Exchange × Connection → Exchange × Connection → Prop) : Prop
    extends Locks R where
  committed : ∀ x c, R (x, c) ((x.ask .commit (.committed c.number)).2, c)

variable [IsPreorder (Exchange × Connection) R]

namespace Locks

lemma tryBegin (h : Locks R) : Moves R tryBegin := by
  refine .get_bind fun w => Job.move_bind (h.begun w.1 w.2) fun reply => ?_
  cases reply.failure? with
  | none => exact .pure _
  | some message => exact .bind (fun w => h.rolledBack w.1 w.2) fun _ => .pure _

lemma wait (h : Locks R) (attempt : Nat) : Moves R (wait attempt) := by
  rintro ⟨x, c⟩
  rw [run_wait]
  split
  · exact refl_of R (x, c)
  · next delay _ =>
    split
    · exact refl_of R (x, c)
    · exact h.slept x c delay

lemma beginFrom (h : Locks R) (attempt left : Nat) : Moves R (beginFrom attempt left) := by
  induction left generalizing attempt with
  | zero =>
    refine .bind h.tryBegin fun r => ?_
    rcases r with _ | ⟨message, locked⟩
    · exact .pure ()
    · exact .throw _
  | succ left ih =>
    refine .bind h.tryBegin fun r => ?_
    rcases r with _ | ⟨message, _ | _⟩
    · exact .pure ()
    · exact .bind (.throw _) fun _ => .bind (h.wait attempt) fun _ => ih (attempt + 1)
    · exact .bind (h.wait attempt) fun _ => ih (attempt + 1)

lemma takeLock (h : Locks R) : Moves R takeLock :=
  .subject_bind fun w => h.beginFrom 0 w.2.settings.maxRetries w

end Locks

namespace Transacts

lemma commit (h : Transacts R) : Moves R commit := by
  refine .subject_bind fun w => Job.move_bind (h.committed w.1 w.2) fun reply => ?_
  cases reply.failure? with
  | none => exact .pure _
  | some message => exact .throw _

lemma inTransaction (h : Transacts R) {work : Job Connection α} (hwork : Moves R work) :
    Moves R (inTransaction work) :=
  .bind h.takeLock fun _ => .undoing (.bind hwork fun _ => .bind h.commit fun _ => .pure _)
    fun w => h.rolledBack w.1 w.2

end Transacts

lemma moves_execute {h : Handle String} {values : List Value}
    (hexecuted : ∀ x c, R (x, c)
      ((x.ask (requestOf h.sql) (.executed c.number h.sql values)).2, c)) :
    Moves R (execute h values) := by
  refine .get_bind fun w => Job.move_bind (hexecuted w.1 w.2) fun reply => ?_
  cases reply with
  | done | rows => exact .pure _
  | failed message => exact .throw _

lemma moves_apply {ds : List Ddl} (hexecuted : ∀ d ∈ ds, ∀ x c, R (x, c)
    ((x.ask (requestOf d.text) (.executed c.number d.text [])).2, c)) : Moves R (apply ds) := by
  induction ds with
  | nil => exact .pure ()
  | cons d ds ih =>
    obtain ⟨hd, hds⟩ := List.forall_mem_cons.mp hexecuted
    intro w
    have hfirst : Moves R (execute ⟨d.text, w.2.generation⟩ []) := moves_execute hd
    exact Moves.bind (.reword (ddlFailure d.text) hfirst) (fun _ => ih hds) w

variable (hinspected : ∀ x c, R (x, c) ((x.inspect c.number).2, c))

include hinspected

omit [IsPreorder (Exchange × Connection) R] in
lemma moves_readCatalog : Moves R readCatalog := by
  rintro ⟨x, c⟩
  rw [run_readCatalog]
  exact hinspected x c

lemma moves_readCatalogOnly (hrolledBack : ∀ x c, R (x, c) (x.record (.rolledBack c.number), c)) :
    Moves R readCatalogOnly :=
  .ensuring (moves_readCatalog hinspected) fun w => hrolledBack w.1 w.2

lemma Transacts.migrate (h : Transacts R) {declared : Schema}
    (happly : ∀ live plan, reconcile declared live = .ok plan → Moves R (apply plan.operations)) :
    Moves R (migrate declared false) := by
  refine h.inTransaction (.bind (moves_readCatalog hinspected) fun live w => ?_)
  rw [Job.run_bind, Job.run_ofExcept]
  cases hplan : reconcile declared live with
  | error e => exact refl_of R w
  | ok plan => exact Moves.bind (happly live plan hplan) (fun _ => .pure plan) w

lemma moves_check (hrolledBack : ∀ x c, R (x, c) (x.record (.rolledBack c.number), c))
    (declared : Schema) : Moves R (migrate declared true) := by
  refine .bind (moves_readCatalogOnly hinspected hrolledBack) fun live => ?_
  refine .bind (.ofExcept _ _) fun plan => ?_
  cases plan.statements with
  | nil => exact .pure plan
  | cons sql rest => exact .throw _

end Connection

namespace Exchange

variable (x : Exchange)

lemma inspect_found (n : Nat) : (x.inspect n).1 = x.inspections.headD (.tables []) := by
  rcases x with ⟨_, _ | ⟨i, _ | ⟨j, rest⟩⟩⟩ <;> rfl

lemma inspect_inspections (n : Nat) : (x.inspect n).2.inspections =
    if x.inspections.length ≤ 1 then x.inspections else x.inspections.tail := by
  rcases x with ⟨_, _ | ⟨i, _ | ⟨j, rest⟩⟩⟩ <;> simp [inspect, record]

end Exchange

namespace Connection

variable {x : Exchange} {c : Connection} {w w' : Exchange × Connection} {live : LiveSchema}
  {declared : Schema} {plan : Plan}

lemma readCatalog_eq_ok (h : readCatalog.run w = (.ok live, w')) :
    ∃ tables, w.1.inspections.headD (.tables []) = .tables tables ∧
      live = .ofInspected tables := by
  obtain ⟨x, c⟩ := w
  rw [run_readCatalog, x.inspect_found] at h
  cases hfound : x.inspections.headD (.tables []) with
  | tables tables =>
    rw [hfound] at h
    exact ⟨tables, rfl, (Except.ok.inj (congrArg Prod.fst h)).symm⟩
  | failed message =>
    rw [hfound] at h
    cases congrArg Prod.fst h

def SameLooks (w w' : Exchange × Connection) : Prop := w'.1.inspections = w.1.inspections

instance : IsPreorder (Exchange × Connection) SameLooks where
  refl _ := rfl
  trans _ _ _ h h' := h'.trans h

lemma sameLooks_locks : Locks SameLooks where
  begun x _ := x.ask_inspections _ _
  rolledBack _ _ := rfl
  slept _ _ _ := rfl

lemma found_of_migrate {readOnly : Bool}
    (h : (migrate declared readOnly).run w = (.ok plan, w')) :
    ∃ tables, w.1.inspections.headD (.tables []) = .tables tables ∧
      reconcile declared (.ofInspected tables) = .ok plan ∧
      (readOnly = true → plan.operations = []) := by
  cases readOnly with
  | true =>
    obtain ⟨live, w₁, hread, hrest⟩ := Job.run_bind_eq_ok h
    obtain ⟨p, hreconcile, hend⟩ := Job.run_ofExcept_bind_eq_ok hrest
    have hlive : (readCatalog.run w).1 = .ok live := congrArg Prod.fst hread
    obtain ⟨tables, hfound, rfl⟩ := readCatalog_eq_ok (Prod.ext hlive rfl)
    cases hstatements : p.statements with
    | nil =>
      rw [hstatements] at hend
      obtain rfl := Except.ok.inj (congrArg Prod.fst hend)
      exact ⟨tables, hfound, hreconcile, fun _ => List.map_eq_nil_iff.mp hstatements⟩
    | cons sql rest =>
      rw [hstatements] at hend
      cases congrArg Prod.fst hend
  | false =>
    obtain ⟨⟨⟩, w₁, hlock, hrest⟩ := Job.run_bind_eq_ok h
    have hsame : w₁.1.inspections = w.1.inspections := by
      have := sameLooks_locks.takeLock w
      rw [hlock] at this
      exact this
    -- the changes and the commit that follow the plan have all succeeded
    obtain ⟨p, _, hwork, hcommit⟩ := Job.run_bind_eq_ok (Job.run_undoing_eq_ok hrest)
    obtain ⟨-, _, -, hend⟩ := Job.run_bind_eq_ok hcommit
    obtain rfl := Except.ok.inj (congrArg Prod.fst hend)
    obtain ⟨live, _, hread, hplanned⟩ := Job.run_bind_eq_ok hwork
    obtain ⟨q, hreconcile, happlied⟩ := Job.run_ofExcept_bind_eq_ok hplanned
    obtain ⟨-, _, -, hdone⟩ := Job.run_bind_eq_ok happlied
    obtain rfl := Except.ok.inj (congrArg Prod.fst hdone)
    obtain ⟨tables, hfound, rfl⟩ := readCatalog_eq_ok hread
    exact ⟨tables, hsame ▸ hfound, hreconcile, nofun⟩

end Connection

end Tablewright
