import Tablewright.Proofs.Engine.Transaction

namespace Tablewright

namespace Connection

inductive Task where
  | write (c : Compiled) (given : Supplied)
  | read (c : Compiled) (given : Supplied)
  | migrate (declared : Schema) (readOnly : Bool)
  | catalog
  | warm (sql : String)

namespace Task

def Result : Task → Type
  | write _ _ | read _ _ => ResultSet
  | migrate _ _ => Plan
  | catalog => LiveSchema
  | warm _ => Handle String

def job : (t : Task) → Job Connection t.Result
  | write c given => Connection.write c given
  | read c given => Connection.read c given
  | migrate declared readOnly => Connection.migrate declared readOnly
  | catalog => readCatalogOnly
  | warm sql => prepared sql

/-- The statements that a task with a result has committed. What is run by a reader may be there to
stay if the engine does not wait for the end of a transaction. -/
def Did : (t : Task) → t.Result → List Executed → Prop
  | write c given, _, done => ∃ values, c.bind given = .ok values ∧ done = [⟨c.sql, values⟩]
  | read c given, _, done =>
    done = [] ∨ ∃ values, c.bind given = .ok values ∧ done = [⟨c.sql, values⟩]
  | migrate _ _, plan, done => done = (Plan.operations plan).map fun d => ⟨d.text, []⟩
  | catalog, _, done | warm _, _, done => done = []

/-- What is left of a task that started with no transaction open. -/
structure Keeps (t : Task) (c : List Executed) (r : Except Failure t.Result) (s : Session) :
    Prop where
  closed : s.pending = none
  failed : ∀ e, r = .error e → s.committed = c
  returned : ∀ a, r = .ok a → ∃ done, t.Did a done ∧ s.committed = c ++ done

end Task

variable {n : Nat} {s : Session} {c p : List Executed}

lemma leaves_prepared (sql : String) : Leaves n s (prepared sql) fun r s' =>
    s' = s ∧ ∃ h, r = .ok h ∧ h.sql = sql := by
  refine .silent ?_
  rintro ⟨x, k⟩ hk
  rw [run_prepared]
  cases hlookup : k.cache.handles.lookup sql with
  | none =>
    refine ⟨⟨hk.number, fun e he => ?_⟩, rfl, rfl, _, rfl, rfl⟩
    rcases List.mem_append.mp he with he | he
    · exact hk.handles e he
    · rw [List.mem_singleton.mp he]
  | some h =>
    have hmem : (sql, h) ∈ k.cache.handles := mem_of_lookup hlookup
    exact ⟨⟨hk.number, hk.handles⟩, rfl, rfl, h, rfl, hk.handles _ hmem⟩

lemma leaves_readCatalog {Q : Except Failure LiveSchema → Session → Prop}
    (hok : ∀ live s', Session.Step n s (.inspected n true) s' → Q (.ok live) s')
    (herror : ∀ e s', Session.Step n s (.inspected n false) s' → Q (.error e) s') :
    Leaves n s readCatalog Q := by
  rintro ⟨x, k⟩ hk
  obtain rfl := hk.number
  rw [run_readCatalog]
  refine ⟨hk, _, x.inspect_events k.number, fun s' hs' => ?_⟩
  have hstep := steps_singleton.mp hs'
  cases hfound : (x.inspect k.number).1 with
  | tables tables =>
    rw [hfound] at hstep
    exact hok _ s' hstep
  | failed message =>
    rw [hfound] at hstep
    exact herror _ s' hstep

lemma leaves_run {compiled : Compiled} {given : Supplied} {values : List Value}
    (h : compiled.bind given = .ok values) :
    Leaves n ⟨c, some p⟩ (run compiled given)
      (Working c p fun _ => [⟨compiled.sql, values⟩]) := by
  refine .bind (.ofExcept ?_)
  rw [h]
  refine .bind ((leaves_prepared compiled.sql).mono ?_)
  rintro _ s' ⟨rfl, handle, rfl, hsql⟩
  exact hsql ▸ leaves_execute handle values

lemma leaves_run_alone (compiled : Compiled) (given : Supplied) :
    Leaves n ⟨c, none⟩ (run compiled given) fun r s => match r with
      | .ok _ => s.committed = c ∨ ∃ values, compiled.bind given = .ok values ∧
          s.committed = c ++ [⟨compiled.sql, values⟩]
      | .error _ => s.committed = c := by
  refine .bind (.ofExcept ?_)
  cases hvalues : compiled.bind given with
  | error e => rfl
  | ok values =>
    refine .bind ((leaves_prepared compiled.sql).mono ?_)
    rintro _ s' ⟨rfl, handle, rfl, hsql⟩
    refine (leaves_execute_alone handle values).mono ?_
    rintro (e | a) s h
    · exact h
    · exact h.imp_right fun hran => ⟨values, rfl, hsql ▸ hran⟩

lemma leaves_apply (ds : List Ddl) : Leaves n ⟨c, some p⟩ (apply ds)
    (Working c p fun _ => ds.map fun d => ⟨d.text, []⟩) := by
  induction ds generalizing p with
  | nil => exact .pure ⟨rfl, fun _ _ => (List.append_nil p).symm ▸ rfl⟩
  | cons d ds ih =>
    refine .bind (.silent fun w hw => ⟨hw, rfl, ?_⟩)
    refine .bind (.reword (leaves_execute ⟨d.text, w.2.generation⟩ []) ?_ ?_)
    · rintro a ⟨c', p'⟩ ⟨hcommitted, hpending⟩
      obtain rfl : c' = c := hcommitted
      obtain rfl : p' = some (p ++ [⟨d.text, []⟩]) := hpending a rfl
      refine ih.mono ?_
      rintro r s ⟨hcommitted, hpending⟩
      refine ⟨hcommitted, fun a ha => ?_⟩
      rw [hpending a ha, List.append_assoc]
      rfl
    · intro e s hs
      exact ⟨hs.committed, nofun⟩

lemma leaves_readCatalogOnly : Leaves n ⟨c, none⟩ readCatalogOnly fun _ s => s = ⟨c, none⟩ := by
  refine .ensuring (Q := fun _ s => s.committed = c) (leaves_readCatalog ?_ ?_) ?_
  · intro live s' hstep
    exact hstep.committed_of_inspected
  · intro e s' hstep
    exact hstep.committed_of_inspected
  · rintro r ⟨c', p'⟩ rfl
    rfl

lemma leaves_check (declared : Schema) : Leaves n ⟨c, none⟩ (migrate declared true)
    ((Task.migrate declared true).Keeps c) := by
  have hfailed : ∀ e, (Task.migrate declared true).Keeps c (.error e) ⟨c, none⟩ :=
    fun e => ⟨rfl, fun _ _ => rfl, nofun⟩
  refine .bind (leaves_readCatalogOnly.mono ?_)
  rintro (e | live) s' rfl
  · exact hfailed e
  · refine .bind (.ofExcept ?_)
    cases reconcile declared live with
    | error e => exact hfailed _
    | ok plan =>
      obtain ⟨operations⟩ := plan
      cases operations with
      | nil =>
        refine .pure ⟨rfl, fun _ _ => rfl, ?_⟩
        rintro _ ⟨⟩
        exact ⟨[], rfl, (List.append_nil c).symm⟩
      | cons d ds => exact .throw (hfailed _)

lemma leaves_change (declared : Schema) : Leaves n ⟨c, some []⟩
    (do
      let live ← readCatalog
      let plan ← Job.ofExcept .migration (reconcile declared live)
      apply plan.operations
      return plan)
    (Working c [] fun plan => plan.operations.map fun d => ⟨d.text, []⟩) := by
  refine .bind (leaves_readCatalog ?_ ?_)
  · intro live s' hstep
    obtain rfl := hstep.of_inspected
    refine .bind (.ofExcept ?_)
    cases reconcile declared live with
    | error e => exact ⟨rfl, nofun⟩
    | ok plan =>
      refine .bind ((leaves_apply plan.operations).mono ?_)
      rintro (e | ⟨⟩) s hs
      · exact ⟨hs.committed, nofun⟩
      · refine .pure ⟨hs.committed, ?_⟩
        rintro _ ⟨⟩
        exact hs.pending () rfl
  · intro e s' hstep
    exact ⟨hstep.committed_of_inspected, nofun⟩

lemma leaves_job (t : Task) : Leaves n ⟨c, none⟩ t.job (t.Keeps c) := by
  cases t with
  | write compiled given =>
    refine .bind (.ofExcept ?_)
    cases hvalues : compiled.bind given with
    | error e => exact ⟨rfl, fun _ _ => rfl, nofun⟩
    | ok values =>
      have hrun := leaves_run (n := n) (c := c) (p := []) (Compiled.bind_sequence hvalues)
      refine (leaves_inTransaction hrun).mono ?_
      rintro r s ⟨hclosed, hfailed, hreturned⟩
      exact ⟨hclosed, hfailed, fun a ha => ⟨_, ⟨values, hvalues, rfl⟩, hreturned a ha⟩⟩
  | read compiled given =>
    refine .ensuring (leaves_run_alone compiled given) ?_
    rintro (e | a) s h
    · exact ⟨rfl, fun _ _ => h, nofun⟩
    · refine ⟨rfl, nofun, fun _ _ => ?_⟩
      obtain h | ⟨values, hvalues, h⟩ := h
      · exact ⟨[], Or.inl rfl, h.trans (List.append_nil c).symm⟩
      · exact ⟨_, Or.inr ⟨values, hvalues, rfl⟩, h⟩
  | migrate declared readOnly =>
    cases readOnly with
    | true => exact leaves_check declared
    | false =>
      refine (leaves_inTransaction (leaves_change declared)).mono ?_
      rintro r s ⟨hclosed, hfailed, hreturned⟩
      exact ⟨hclosed, hfailed, fun plan hplan => ⟨_, rfl, hreturned plan hplan⟩⟩
  | catalog =>
    refine leaves_readCatalogOnly.mono ?_
    rintro r s rfl
    exact ⟨rfl, fun _ _ => rfl, fun _ _ => ⟨[], rfl, (List.append_nil c).symm⟩⟩
  | warm sql =>
    refine (leaves_prepared sql).mono ?_
    rintro r s ⟨rfl, -⟩
    exact ⟨rfl, fun _ _ => rfl, fun _ _ => ⟨[], rfl, (List.append_nil c).symm⟩⟩

end Connection

end Tablewright
