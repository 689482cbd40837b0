import Tablewright.Proofs.Statement.Scope

namespace Tablewright

lemma checkScope_append (scope : List String) (xs ys : List (Except Fault TableColumn)) :
    checkScope scope (xs ++ ys) = (checkScope scope xs).bind fun _ => checkScope scope ys := by
  induction xs with
  | nil => rfl
  | cons x xs ih =>
    cases x with
    | error f => rfl
    | ok c =>
      rw [List.cons_append, checkScope, checkScope, ih]
      split <;> rfl

namespace Statement

variable {s : Statement} {p : Predicate} {ps : List Predicate}

lemma admits_append (s : Statement) (xs ys : List (Except Fault TableColumn)) :
    s.admits (xs ++ ys) = (s.admits xs).bind fun _ => s.admits ys := by
  cases s with
  | update s | delete s => exact checkScope_append _ xs ys
  | select s | insert s | ddl d => rfl

lemma admits_filtered (s : Statement) (p : Predicate) : (s.filtered p).admits = s.admits := by
  cases s <;> rfl

lemma filtered_filtered (s : Statement) (p q : Predicate) :
    (s.filtered p).filtered q = s.filtered q := by
  cases s <;> rfl

lemma filter_filtered {columns : List (Except Fault TableColumn)} (h : s.admits columns = .ok ())
    (p : Predicate) : (s.filtered p).filter = some p := by
  cases s with
  | select s | update s | delete s => rfl
  | insert s | ddl d => cases h

def restrictions (ps : List Predicate) : List Step := ps.map fun p => .restrict (.predicate p)

lemma takes_restrictions_cons (hs : ∀ v, s.filter ≠ some (.stray v)) (hp : ∀ v, p ≠ .stray v) :
    ∃ q, Predicate.restrict s.filter p = .ok q ∧
      ∀ ps, s.takes (restrictions (p :: ps)) =
        (s.admits p.columns).bind fun _ => (s.filtered q).takes (restrictions ps) := by
  obtain ⟨q, hq⟩ : ∃ q, Predicate.restrict s.filter p = .ok q := by
    cases hf : s.filter with
    | none => exact ⟨p, rfl⟩
    | some f =>
      refine Predicate.exists_combine (List.cons_ne_nil f [p]) fun r hr v => ?_
      rcases List.mem_pair.mp hr with rfl | rfl
      · exact fun h => hs v (h ▸ hf)
      · exact hp v
  refine ⟨q, hq, fun ps => ?_⟩
  rw [restrictions, List.map_cons, takes, step_restrict hp, hq]
  cases s.admits p.columns <;> rfl

end Statement

end Tablewright
