import Mathlib.Logic.Function.Basic
import Mathlib.Tactic.Lemma
import Tablewright.Logging.Scope

/-! Scopes within scopes. A block in a scope gives back the id that was there before it, however the
block ends. A scope has room for one id only: where it is entered again while it is active, the id
that it was to give back is lost. -/

namespace Tablewright

inductive Nesting (ε : Type) where
  | done
  | set (id : Value)
  | clear
  | raise (e : ε)
  | seq (first second : Nesting ε)
  | look (next : Option StatementId → Nesting ε)
  | attempt (body : Nesting ε) (handler : ε → Nesting ε)
  | block (scope : Nat) (body : Nesting ε)

structure Tagged where
  tagging : Tagging := {}
  scopes : Nat → Scope

namespace Tagged

def current (s : Tagged) : Option StatementId := s.tagging.current

def enter (s : Tagged) (k : Nat) : Tagged where
  tagging := (s.tagging.enter (s.scopes k)).2
  scopes := Function.update s.scopes k (s.tagging.enter (s.scopes k)).1

def leave (s : Tagged) (k : Nat) : Tagged where
  tagging := (s.tagging.leave (s.scopes k)).2
  scopes := Function.update s.scopes k (s.tagging.leave (s.scopes k)).1

variable {s : Tagged} {j k : Nat}

lemma saved_enter : ((s.enter k).scopes j).saved =
    if j = k then some s.current else (s.scopes j).saved := by
  by_cases h : j = k
  · subst h
    rw [enter, if_pos rfl]
    dsimp only
    rw [Function.update_self]
    rfl
  · rw [enter, if_neg h]
    dsimp only
    rw [Function.update_of_ne h]

lemma saved_leave : ((s.leave k).scopes j).saved =
    if j = k then none else (s.scopes j).saved := by
  by_cases h : j = k
  · subst h
    rw [leave, if_pos rfl]
    dsimp only
    rw [Function.update_self, Tagging.leave]
    split
    · rfl
    · next hnone => exact hnone
  · rw [leave, if_neg h]
    dsimp only
    rw [Function.update_of_ne h]

lemma current_leave : (s.leave k).current = (s.scopes k).saved.getD s.current := by
  rw [current, leave, Tagging.leave]
  cases (s.scopes k).saved with
  | none => rfl
  | some id => rfl

end Tagged

namespace Nesting

variable {ε : Type}

def run : Nesting ε → Tagged → Except ε Unit × Tagged
  | done, s => (.ok (), s)
  | set id, s => (.ok (), { s with tagging := (s.tagging.set id).2 })
  | clear, s => (.ok (), { s with tagging := s.tagging.clear })
  | raise e, s => (.error e, s)
  | seq first second, s =>
    match first.run s with
    | (.ok (), t) => second.run t
    | (.error e, t) => (.error e, t)
  | look next, s => (next s.current).run s
  | attempt body handler, s =>
    match body.run s with
    | (.ok (), t) => (.ok (), t)
    | (.error e, t) => (handler e).run t
  | block k body, s => ((body.run (s.enter k)).1, (body.run (s.enter k)).2.leave k)

def entered : Nesting ε → Tagged → List Nat
  | done, _ | set _, _ | clear, _ | raise _, _ => []
  | seq first second, s => first.entered s ++
    match first.run s with
    | (.ok (), t) => second.entered t
    | (.error _, _) => []
  | look next, s => (next s.current).entered s
  | attempt body handler, s => body.entered s ++
    match body.run s with
    | (.ok (), _) => []
    | (.error e, t) => (handler e).entered t
  | block k body, s => k :: body.entered (s.enter k)

variable {p body : Nesting ε} {s t : Tagged} {j k : Nat}

lemma saved_run : ((p.run s).2.scopes j).saved =
    if j ∈ p.entered s then none else (s.scopes j).saved := by
  induction p generalizing s with
  | done | set _ | clear | raise _ => rfl
  | seq first second ihfirst ihsecond =>
    have hfirst := ihfirst (s := s)
    rw [run, entered]
    rcases hrun : first.run s with ⟨_ | _, t⟩
    · rw [hrun] at hfirst
      simpa using hfirst
    · rw [hrun] at hfirst
      dsimp only at hfirst ⊢
      rw [ihsecond, hfirst]
      by_cases h : j ∈ second.entered t <;> simp [h]
  | look next ih => exact ih s.current
  | attempt body handler ihbody ihhandler =>
    have hbody := ihbody (s := s)
    rw [run, entered]
    rcases hrun : body.run s with ⟨e | _, t⟩
    · rw [hrun] at hbody
      dsimp only at hbody ⊢
      rw [ihhandler, hbody]
      by_cases h : j ∈ (handler e).entered t <;> simp [h]
    · rw [hrun] at hbody
      simpa using hbody
  | block k body ih =>
    rw [run, entered, Tagged.saved_leave, ih, Tagged.saved_enter]
    by_cases h : j = k
    · simp [h]
    · simp [h]

lemma current_block : ((block k body).run s).2.current =
    if k ∈ body.entered (s.enter k) then (body.run (s.enter k)).2.current else s.current := by
  rw [run, Tagged.current_leave, saved_run, Tagged.saved_enter, if_pos rfl]
  by_cases h : k ∈ body.entered (s.enter k)
  · rw [if_pos h, if_pos h, Option.getD_none]
  · rw [if_neg h, if_neg h, Option.getD_some]

/-- A block ends as what runs in it ends. The id that was there before is back afterwards unless the
scope was entered again inside; then the id stays as it is at the end of what runs in the block. -/
theorem block_restores_iff (k : Nat) (body : Nesting ε) (s : Tagged) :
    ((block k body).run s).1 = (body.run (s.enter k)).1 ∧
      (((block k body).run s).2.current = s.current ↔
        (k ∈ body.entered (s.enter k) → (body.run (s.enter k)).2.current = s.current)) ∧
      (k ∈ body.entered (s.enter k) →
        ((block k body).run s).2.current = (body.run (s.enter k)).2.current) := by
  refine ⟨rfl, ?_, ?_⟩
  · rw [current_block]
    by_cases h : k ∈ body.entered (s.enter k)
    · rw [if_pos h]
      exact ⟨fun hback _ => hback, fun hback => hback h⟩
    · rw [if_neg h]
      exact ⟨fun _ hagain => absurd hagain h, fun _ => rfl⟩
  · intro hagain
    rw [current_block, if_pos hagain]

/-- One scope in itself: the id of the scope is still there when both blocks have ended. -/
theorem block_reentered :
    let s : Tagged :=
      { tagging := { current := some (.given (.text "outer")) }
        scopes := fun _ => { id := .given (.text "inner") } }
    ((block 0 (block 0 (done (ε := Unit)))).run s).2.current = some (.given (.text "inner")) ∧
      ((block 0 (block 0 (done (ε := Unit)))).run s).2.current ≠ s.current := by
  intro s
  have hrun : ((block 0 (block 0 (done (ε := Unit)))).run s).2.current =
      some (.given (.text "inner")) := rfl
  refine ⟨hrun, ?_⟩
  rw [hrun]
  simp [Tagged.current, s]

end Nesting

end Tablewright
