import Tablewright.Proofs.Engine.Attempts

namespace Tablewright

open Connection (Missed beginText engineError)

inductive Call where
  | connect (role : Role) (settings : DatabaseSettings)
  | readCatalog (c : Connection)
  | execute (c : Connection) (h : Handle String) (values : List Value)
  | runScript (c : Connection) (script : String)
  | takeLock (c : Connection)
  | commit (c : Connection)

def error? {α : Type} : Except Failure α → Option Failure
  | .ok _ => none
  | .error e => some e

namespace Call

def text : Call → String
  | connect _ _ => "connect"
  | readCatalog _ => "catalog"
  | execute _ h _ => h.sql
  | runScript _ script => script
  | takeLock _ => beginText
  | commit _ => "COMMIT"

def failure? (x : Exchange) : Call → Option Failure
  | connect role settings => error? ((Connection.connect role settings).run (x, ())).1
  | readCatalog c => error? (Connection.readCatalog.run (x, c)).1
  | execute c h values => error? ((Connection.execute h values).run (x, c)).1
  | runScript c script => error? ((Connection.runScript script).run (x, c)).1
  | takeLock c => error? (Connection.takeLock.run (x, c)).1
  | commit c => error? (Connection.commit.run (x, c)).1

/-- The engine refuses a call, with a message of its own. Of the attempts to take the write lock the
last one counts. -/
def Refused (x : Exchange) : Call → String → Prop
  | connect _ _, message => (x.reply .connect 0).failure? = some message
  | readCatalog c, message => (x.inspect c.number).1 = .failed message
  | execute _ h _, message => (x.reply (Connection.requestOf h.sql) 0).failure? = some message
  | runScript _ _, message => (x.reply .script 0).failure? = some message
  | takeLock c, message => ∃ last ≤ c.settings.maxRetries, (∀ i < last, Missed x c i) ∧
      (x.reply .begin last).failure? = some message ∧
      (Lock.Says message → last = c.settings.maxRetries)
  | commit _, message => (x.reply .commit 0).failure? = some message

def Marked (x : Exchange) : Call → String → Prop
  | execute _ h values, message => Lock.Says message ∨ Lock.Says h.sql ∨
      (values ≠ [] ∧ Lock.Says (x.wording.shown values))
  | takeLock _, message => Lock.Says message
  | connect _ _, _ | readCatalog _, _ | runScript _ _, _ | commit _, _ => False

def Faithful (x : Exchange) : Call → String → Prop
  | execute _ h values, message =>
      Lock.Says h.sql ∨ (values ≠ [] ∧ Lock.Says (x.wording.shown values)) →
        Lock.Says message
  | takeLock _, _ => True
  | connect _ _, message | readCatalog _, message | runScript _ _, message | commit _, message =>
      ¬ Lock.Says message

variable {x : Exchange} {c : Connection} {call : Call} {message : String} {retryable : Bool}

lemma faithful_iff : (call.Marked x message ↔ Lock.Says message) ↔ call.Faithful x message := by
  cases call with
  | execute c h values => exact or_iff_left_iff_imp
  | takeLock c => exact iff_true_intro Iff.rfl
  | connect role settings | readCatalog c | runScript c script | commit c =>
    exact iff_of_eq (false_iff _)

section Asked

variable {said : Option String} {text : String} {mark : String → Bool} {P : Prop}

def refusal (said : Option String) (text : String) (mark : String → Bool) : Option Failure :=
  said.map fun message => engineError text message (mark message)

lemma refusal_eq_iff (h : mark message = true ↔ P) :
    refusal said text mark = some (engineError text message retryable) ↔
      said = some message ∧ (retryable = true ↔ P) := by
  rw [refusal, Option.map_eq_some_iff]
  constructor
  · rintro ⟨_, rfl, heq⟩
    cases heq
    exact ⟨rfl, h⟩
  · rintro ⟨rfl, hretryable⟩
    rw [Bool.eq_iff_iff.mpr (hretryable.trans h.symm)]
    exact ⟨_, rfl, rfl⟩

lemma exists_of_refusal {f : Failure} (h : refusal said text mark = some f) :
    ∃ message retryable, f = engineError text message retryable := by
  obtain ⟨message, -, rfl⟩ := Option.map_eq_some_iff.mp h
  exact ⟨_, _, rfl⟩

end Asked

lemma exists_refusal_of_unmarked (said : Option String)
    (h : call.failure? x = refusal said call.text fun _ => false)
    (hsaid : ∀ message, said = some message ↔ call.Refused x message)
    (hmarked : ∀ message, ¬ call.Marked x message) :
    ∃ said mark, call.failure? x = refusal said call.text mark ∧
      ∀ message, (said = some message ↔ call.Refused x message) ∧
        (mark message = true ↔ call.Marked x message) :=
  ⟨said, _, h, fun message =>
    ⟨hsaid message, iff_of_false Bool.false_ne_true (hmarked message)⟩⟩

lemma failure?_eq_refusal (hcall : ∀ c, call ≠ .takeLock c) :
    ∃ said mark, call.failure? x = refusal said call.text mark ∧
      ∀ message, (said = some message ↔ call.Refused x message) ∧
        (mark message = true ↔ call.Marked x message) := by
  cases call with
  | connect role settings =>
    refine exists_refusal_of_unmarked _ ?_ (fun _ => Iff.rfl) (fun _ => id)
    have hreply : ({ x with attempts := x.attempts + 1 } : Exchange).reply .connect 0 =
        x.reply .connect 0 := rfl
    rw [failure?, Connection.run_connect]
    dsimp only
    rw [Exchange.ask_fst, hreply]
    cases (x.reply .connect 0).failure? <;> rfl
  | readCatalog c =>
    refine exists_refusal_of_unmarked (match (x.inspect c.number).1 with
      | .failed message => some message
      | .tables _ => none) ?_ (fun message => ?_) (fun _ => id)
    · rw [failure?, Connection.run_readCatalog]
      cases (x.inspect c.number).1 <;> rfl
    · rw [Refused]
      cases (x.inspect c.number).1 <;> simp
  | execute c h values =>
    refine ⟨_, fun message => Lock.isLockText (x.wording.text message h.sql values), ?_,
      fun message => ⟨Iff.rfl, ?_⟩⟩
    · rw [failure?, Connection.run_execute]
      dsimp only
      rw [Exchange.ask_fst]
      cases x.reply (Connection.requestOf h.sql) 0 <;> rfl
    · rw [Lock.isLockText_iff, x.wording.says_text_iff]
      exact Iff.rfl
  | runScript c script =>
    refine exists_refusal_of_unmarked _ ?_ (fun _ => Iff.rfl) (fun _ => id)
    rw [failure?, Connection.run_runScript]
    dsimp only
    rw [Exchange.ask_fst]
    cases (x.reply .script 0).failure? <;> rfl
  | takeLock c => exact absurd rfl (hcall c)
  | commit c =>
    refine exists_refusal_of_unmarked _ ?_ (fun _ => Iff.rfl) (fun _ => id)
    rw [failure?, Connection.run_commit]
    dsimp only
    rw [Exchange.ask_fst]
    cases (x.reply .commit 0).failure? <;> rfl

lemma failure?_takeLock_iff :
    (takeLock c).failure? x = some (engineError beginText message retryable) ↔
      (takeLock c).Refused x message ∧ (retryable = true ↔ Lock.Says message) := by
  constructor
  · obtain ⟨last, hmax, hmissed, r, x', new, hrun, hending, -⟩ := Connection.exists_run_takeLock x c
    rw [failure?, hrun]
    intro h
    cases hending with
    | taken => cases h
    | refused hmessage hretryable hlast =>
      cases h
      exact ⟨⟨last, hmax, hmissed, hmessage, hlast⟩, hretryable⟩
    | unwaited => cases h
  · rintro ⟨⟨last, hmax, hmissed, hmessage, hlast⟩, hretryable⟩
    rw [failure?, Connection.run_takeLock_of_ending hmax hmissed
      (.refused hmessage hretryable hlast)]
    rfl

lemma exists_of_takeLock {f : Failure} (h : (takeLock c).failure? x = some f) :
    (∃ e, f = .fault e) ∨ ∃ message retryable, f = engineError beginText message retryable := by
  obtain ⟨last, hmax, hmissed, r, x', new, hrun, hending, -⟩ := Connection.exists_run_takeLock x c
  rw [failure?, hrun] at h
  cases hending with
  | taken => cases h
  | refused =>
    obtain rfl := Option.some.inj h
    exact Or.inr ⟨_, _, rfl⟩
  | unwaited =>
    obtain rfl := Option.some.inj h
    exact Or.inl ⟨_, rfl⟩

lemma failure?_eq_iff : call.failure? x = some (engineError call.text message retryable) ↔
    call.Refused x message ∧ (retryable = true ↔ call.Marked x message) := by
  by_cases h : ∃ c, call = takeLock c
  · obtain ⟨c, rfl⟩ := h
    exact failure?_takeLock_iff
  · obtain ⟨said, mark, heq, hsaid⟩ := failure?_eq_refusal (x := x) (not_exists.mp h)
    rw [heq, refusal_eq_iff (hsaid message).2, (hsaid message).1]

/-- A refused call fails with what the engine said, marked as one that may pass or not. The mark
agrees with that message exactly if the call takes the write lock, or if it is a statement and the
message is of a lock whenever the statement or its parameters are, or if it is another call and the
message is of none. -/
theorem retryable_iff_faithful (x : Exchange) (call : Call) :
    (∀ f, call.failure? x = some f → (∃ c e, call = .takeLock c ∧ f = .fault e) ∨
      ∃ message retryable, f = engineError call.text message retryable) ∧
    ∀ message,
      (call.Refused x message ↔
        ∃ retryable, call.failure? x = some (engineError call.text message retryable)) ∧
      ∀ retryable, call.failure? x = some (engineError call.text message retryable) →
        (retryable = true ↔ call.Marked x message) ∧
        ((retryable = true ↔ Lock.Says message) ↔ call.Faithful x message) := by
  refine ⟨fun f hf => ?_, fun message => ⟨⟨fun h => ?_, ?_⟩, fun retryable h => ?_⟩⟩
  · by_cases h : ∃ c, call = takeLock c
    · obtain ⟨c, rfl⟩ := h
      exact (exists_of_takeLock hf).imp_left fun ⟨e, he⟩ => ⟨c, e, rfl, he⟩
    · obtain ⟨said, mark, heq, -⟩ := failure?_eq_refusal (x := x) (not_exists.mp h)
      exact Or.inr (exists_of_refusal (heq ▸ hf))
  · classical
    exact ⟨decide (call.Marked x message), failure?_eq_iff.mpr ⟨h, decide_eq_true_iff⟩⟩
  · rintro ⟨retryable, h⟩
    exact (failure?_eq_iff.mp h).1
  · have hmarked := (failure?_eq_iff.mp h).2
    rw [hmarked]
    exact ⟨Iff.rfl, faithful_iff⟩

namespace Misread

def connection : Connection := ⟨.writer, {}, 1, 1, {}, false⟩

def exchange : Exchange where
  replies
    | .execute => [.failed "no such table: t"]
    | .commit => [.failed "database is locked"]
    | _ => []

def quoting : Handle String := ⟨"SELECT 'database is locked' FROM t", 1⟩

end Misread

open Misread in
/-- A statement that only quotes what is said of a lock is marked as one that may pass, and a commit
that is refused for a lock is not. -/
theorem marked_unfaithfully :
    (execute connection quoting []).failure? exchange =
        some (engineError quoting.sql "no such table: t" true) ∧
      ¬ Lock.Says "no such table: t" ∧
    (commit connection).failure? exchange =
        some (engineError "COMMIT" "database is locked" false) ∧
      Lock.Says "database is locked" := by
  have hquoting : Lock.Says quoting.sql := Lock.isLockText_iff.mp (by decide +kernel)
  have hother : ¬ Lock.Says "no such table: t" := by
    rw [← Lock.isLockText_iff]
    decide +kernel
  exact ⟨failure?_eq_iff.mpr ⟨rfl, iff_of_true rfl (Or.inr (Or.inl hquoting))⟩, hother,
    failure?_eq_iff.mpr ⟨rfl, iff_of_false Bool.false_ne_true id⟩,
    Lock.isLockText_iff.mp (by decide +kernel)⟩

end Call

end Tablewright
