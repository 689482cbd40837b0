import Mathlib.Logic.Function.Basic
import Tablewright.Proofs.Engine.Discipline

/-! What the engine keeps for all connections together: one list of statements whose effects are
there to stay, and for each connection the transaction that it has open. What a job on one
connection does there is what it does to the session of that connection. -/

namespace Tablewright

structure Store where
  committed : List Executed
  pending : Nat → Option (List Executed)

namespace Store

variable {n : Nat} {st st' : Store} {es fs : List Event}

def session (st : Store) (n : Nat) : Session := ⟨st.committed, st.pending n⟩

def withSession (st : Store) (n : Nat) (s : Session) : Store :=
  ⟨s.committed, Function.update st.pending n s.pending⟩

def quiet (c : List Executed) : Store := ⟨c, fun _ => none⟩

@[simp] lemma session_withSession (st : Store) (n : Nat) (s : Session) :
    (st.withSession n s).session n = s := by
  simp [session, withSession]

@[simp] lemma withSession_withSession (st : Store) (n : Nat) (s s' : Session) :
    (st.withSession n s).withSession n s' = st.withSession n s' := by
  simp [withSession]

@[simp] lemma withSession_session (st : Store) (n : Nat) :
    st.withSession n (st.session n) = st := by
  simp [session, withSession]

@[simp] lemma withSession_quiet (c c' : List Executed) (n : Nat) :
    (quiet c).withSession n ⟨c', none⟩ = quiet c' := by
  simp [quiet, withSession]

inductive Step : Store → Event → Store → Prop
  | here {st e n s} : e.connection? = some n → Session.Step n (st.session n) e s →
      Step st e (st.withSession n s)
  | nowhere {st e} : e.connection? = none → Step st e st

def Runs : Store → List Event → Store → Prop := Steps Step

lemma exists_step (st : Store) (e : Event) : ∃ st', Step st e st' := by
  cases hn : e.connection? with
  | none => exact ⟨st, .nowhere hn⟩
  | some n =>
    obtain ⟨s, hs⟩ := Session.exists_step n (st.session n) e
    exact ⟨_, .here hn hs⟩

lemma exists_runs (st : Store) (es : List Event) : ∃ st', Runs st es st' :=
  exists_steps exists_step st es

end Store

def Event.Of (n : Nat) (e : Event) : Prop := ∀ m, e.connection? = some m → m = n

namespace Store

variable {n : Nat} {st st' : Store} {es : List Event}

lemma Step.of {e : Event} (h : Step st e st') (he : e.Of n) :
    ∃ s, Session.Step n (st.session n) e s ∧ st' = st.withSession n s := by
  cases h with
  | here hm hs =>
    obtain rfl := he _ hm
    exact ⟨_, hs, rfl⟩
  | nowhere hnone =>
    refine ⟨st.session n, .elsewhere ?_, (st.withSession_session n).symm⟩
    rw [hnone]
    exact nofun

lemma Runs.of (h : Runs st es st') (hes : ∀ e ∈ es, e.Of n) :
    ∃ s, Session.Runs n (st.session n) es s ∧ st' = st.withSession n s := by
  induction es generalizing st with
  | nil => exact ⟨st.session n, rfl, h.trans (st.withSession_session n).symm⟩
  | cons e es ih =>
    obtain ⟨he, hes⟩ := List.forall_mem_cons.mp hes
    obtain ⟨m, hm, hrest⟩ := h
    obtain ⟨s, hs, rfl⟩ := hm.of he
    obtain ⟨s', hs', rfl⟩ := ih hrest hes
    rw [session_withSession] at hs'
    exact ⟨s', ⟨s, hs, hs'⟩, withSession_withSession st n s s'⟩

end Store

end Tablewright
