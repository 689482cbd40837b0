import Mathlib.Tactic.Lemma
import Tablewright.Engine.Connection

/-! What the engine keeps for a connection: the statements whose effects are there to stay, and those
of a transaction that is open. A request that fails may leave any transaction, or none. -/

namespace Tablewright

section Steps

variable {σ ε : Type} {step : σ → ε → σ → Prop} {s s' : σ}

def Steps (step : σ → ε → σ → Prop) : σ → List ε → σ → Prop
  | s, [], s' => s' = s
  | s, e :: rest, s' => ∃ m, step s e m ∧ Steps step m rest s'

lemma exists_steps (h : ∀ s e, ∃ s', step s e s') (s : σ) (es : List ε) :
    ∃ s', Steps step s es s' := by
  induction es generalizing s with
  | nil => exact ⟨s, rfl⟩
  | cons e es ih =>
    obtain ⟨m, hm⟩ := h s e
    obtain ⟨s', hs'⟩ := ih m
    exact ⟨s', m, hm, hs'⟩

lemma steps_append {es fs : List ε} :
    Steps step s (es ++ fs) s' ↔ ∃ m, Steps step s es m ∧ Steps step m fs s' := by
  induction es generalizing s with
  | nil => simp [Steps]
  | cons e es ih =>
    simp only [List.cons_append, Steps, ih]
    constructor
    · rintro ⟨m, hm, m', hm', h⟩
      exact ⟨m', ⟨m, hm, hm'⟩, h⟩
    · rintro ⟨m', ⟨m, hm, hm'⟩, h⟩
      exact ⟨m, hm, m', hm', h⟩

lemma steps_singleton {e : ε} : Steps step s [e] s' ↔ step s e s' := by
  simp [Steps]

end Steps

structure Executed where
  sql : String
  values : List Value

structure Session where
  committed : List Executed
  pending : Option (List Executed) := none

def Event.connection? : Event → Option Nat
  | connected n _ | executed n _ _ _ | committed n _ | rolledBack n | ranScript n _ _
  | inspected n _ | closed n => some n
  | slept _ | disposed => none

def Event.failed : Event → Bool
  | executed _ _ _ ok | committed _ ok | inspected _ ok => !ok
  | _ => false

namespace Session

/-- What an event means for the session of connection `n`. Outside a transaction a statement opens
one of its own accord, or takes effect at once; a look at the catalog may open one as well. -/
inductive Step (n : Nat) : Session → Event → Session → Prop
  | begun {c values} : Step n ⟨c, none⟩ (.executed n Connection.beginText values true) ⟨c, some []⟩
  | ran {c p sql values} :
      Step n ⟨c, some p⟩ (.executed n sql values true) ⟨c, some (p ++ [⟨sql, values⟩])⟩
  | ranAlone {c sql values} : sql ≠ Connection.beginText →
      Step n ⟨c, none⟩ (.executed n sql values true) ⟨c, some [⟨sql, values⟩]⟩
  | ranAtOnce {c sql values} : sql ≠ Connection.beginText →
      Step n ⟨c, none⟩ (.executed n sql values true) ⟨c ++ [⟨sql, values⟩], none⟩
  | refused {c p p' sql values} : Step n ⟨c, p⟩ (.executed n sql values false) ⟨c, p'⟩
  | committed {c p} : Step n ⟨c, some p⟩ (.committed n true) ⟨c ++ p, none⟩
  | committedNothing {c} : Step n ⟨c, none⟩ (.committed n true) ⟨c, none⟩
  | notCommitted {c p p'} : Step n ⟨c, p⟩ (.committed n false) ⟨c, p'⟩
  | rolledBack {c p} : Step n ⟨c, p⟩ (.rolledBack n) ⟨c, none⟩
  | inspected {s} : Step n s (.inspected n true) s
  | inspectedAlone {c} : Step n ⟨c, none⟩ (.inspected n true) ⟨c, some []⟩
  | notInspected {c p p'} : Step n ⟨c, p⟩ (.inspected n false) ⟨c, p'⟩
  | ranScript {s s' text ok} : Step n s (.ranScript n text ok) s'
  | connected {s ok} : Step n s (.connected n ok) s
  | closed {c p} : Step n ⟨c, p⟩ (.closed n) ⟨c, none⟩
  | elsewhere {s e} : e.connection? ≠ some n → Step n s e s

def Runs (n : Nat) : Session → List Event → Session → Prop := Steps (Step n)

variable {n : Nat} {s s' : Session}

lemma exists_step (n : Nat) (s : Session) (e : Event) : ∃ s', Step n s e s' := by
  by_cases h : e.connection? = some n
  · cases e with
    | executed m sql values ok =>
      obtain rfl := Option.some.inj h
      cases ok with
      | false => exact ⟨s, .refused⟩
      | true =>
        rcases s with ⟨c, _ | p⟩
        · by_cases hsql : sql = Connection.beginText
          · exact hsql ▸ ⟨_, .begun⟩
          · exact ⟨_, .ranAlone hsql⟩
        · exact ⟨_, .ran⟩
    | committed m ok =>
      obtain rfl := Option.some.inj h
      rcases ok with _ | _
      · exact ⟨s, .notCommitted⟩
      · rcases s with ⟨c, _ | p⟩
        · exact ⟨_, .committedNothing⟩
        · exact ⟨_, .committed⟩
    | inspected m ok =>
      obtain rfl := Option.some.inj h
      rcases ok with _ | _
      · exact ⟨s, .notInspected⟩
      · exact ⟨s, .inspected⟩
    | rolledBack m => exact Option.some.inj h ▸ ⟨_, .rolledBack⟩
    | ranScript m text ok => exact Option.some.inj h ▸ ⟨s, .ranScript⟩
    | connected m ok => exact Option.some.inj h ▸ ⟨s, .connected⟩
    | closed m => exact Option.some.inj h ▸ ⟨_, .closed⟩
    | slept delay => cases h
    | disposed => cases h
  · exact ⟨s, .elsewhere h⟩

lemma exists_runs (n : Nat) (s : Session) (es : List Event) : ∃ s', Runs n s es s' :=
  exists_steps (exists_step n) s es

namespace Step

variable {c p : List Executed} {sql : String} {values : List Value}

lemma committed_of_failed {e : Event} (h : Step n s e s') (he : e.failed = true) :
    s'.committed = s.committed := by
  cases h with
  | refused | notCommitted | notInspected | elsewhere => rfl
  | begun | ran | ranAlone | ranAtOnce | committed | committedNothing | rolledBack | inspected
  | inspectedAlone | ranScript | connected | closed => cases he

lemma committed_of_inspected {ok : Bool} (h : Step n s (.inspected n ok) s') :
    s'.committed = s.committed := by
  cases h <;> rfl

lemma of_begin (h : Step n ⟨c, none⟩ (.executed n Connection.beginText values true) s') :
    s' = ⟨c, some []⟩ := by
  cases h with
  | begun => rfl
  | ranAlone hsql | ranAtOnce hsql => exact absurd rfl hsql
  | elsewhere h => exact absurd rfl h

lemma of_executed (h : Step n ⟨c, some p⟩ (.executed n sql values true) s') :
    s' = ⟨c, some (p ++ [⟨sql, values⟩])⟩ := by
  cases h with
  | ran => rfl
  | elsewhere h => exact absurd rfl h

lemma of_executed_alone (h : Step n ⟨c, none⟩ (.executed n sql values true) s') :
    s'.committed = c ∨ s'.committed = c ++ [⟨sql, values⟩] := by
  cases h with
  | begun => exact Or.inl rfl
  | ranAlone => exact Or.inl rfl
  | ranAtOnce => exact Or.inr rfl
  | elsewhere h => exact absurd rfl h

lemma of_inspected (h : Step n ⟨c, some p⟩ (.inspected n true) s') : s' = ⟨c, some p⟩ := by
  cases h <;> rfl

lemma of_committed (h : Step n ⟨c, some p⟩ (.committed n true) s') : s' = ⟨c ++ p, none⟩ := by
  cases h with
  | committed => rfl
  | elsewhere h => exact absurd rfl h

lemma of_rolledBack (h : Step n s (.rolledBack n) s') : s' = ⟨s.committed, none⟩ := by
  cases h with
  | rolledBack => rfl
  | elsewhere h => exact absurd rfl h

end Step

end Session

end Tablewright
