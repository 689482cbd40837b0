import Tablewright.Proofs.Engine.Job
import Tablewright.Proofs.Number.Doubling

namespace Tablewright

namespace Exchange

variable (x : Exchange) (r : Request) (event : Bool → Event)

def reply (i : Nat) : Reply := (x.replies r)[i]?.getD (.done 0)

lemma ask_fst : (x.ask r event).1 = x.reply r 0 := by
  simp only [ask, answer, reply]
  cases x.replies r <;> rfl

lemma reply_ask (i : Nat) : (x.ask r event).2.reply r i = x.reply r (i + 1) := by
  simp only [ask, answer, reply]
  cases h : x.replies r with
  | nil => simp [record, h]
  | cons reply rest => simp [record]

end Exchange

namespace DatabaseSettings

def delay (s : DatabaseSettings) (attempt : Nat) : Double :=
  (s.retryBaseDelay.mul (.ofInt (Nat.pow 2 attempt))).lesser s.retryMaxDelay

lemma backoff_eq (s : DatabaseSettings) (attempt : Nat) : s.backoff attempt =
    if attempt < 1024 then .ok (s.delay attempt) else .error .numberTooLarge := by
  rw [backoff]
  simp only [Double.isFinite_two_pow]
  by_cases h : attempt < 1024
  · simp [h, delay, Double.lesser]
  · simp [h]

end DatabaseSettings

namespace Connection

variable {x₀ x : Exchange} {c : Connection} {attempt left : Nat}

def unwaited? (x : Exchange) (c : Connection) (attempt : Nat) : Option Fault :=
  if attempt < 1024 then x.clock (c.settings.delay attempt) else some .numberTooLarge

def failedAttempt (c : Connection) : List Event :=
  [.executed c.number beginText [] false, .rolledBack c.number]

def waitedAttempt (c : Connection) (attempt : Nat) : List Event :=
  c.failedAttempt ++ [.slept (c.settings.delay attempt)]

def Missed (x : Exchange) (c : Connection) (attempt : Nat) : Prop :=
  (∃ message, (x.reply .begin attempt).failure? = some message ∧ Lock.Says message) ∧
    unwaited? x c attempt = none

inductive Ending (x : Exchange) (c : Connection) (attempt : Nat) :
    Except Failure Unit → List Event → Prop
  | taken : (x.reply .begin attempt).failure? = none →
      Ending x c attempt (.ok ()) [.executed c.number beginText [] true]
  | refused {message : String} {retryable : Bool} :
      (x.reply .begin attempt).failure? = some message → (retryable = true ↔ Lock.Says message) →
      (Lock.Says message → attempt = c.settings.maxRetries) →
      Ending x c attempt (.error (engineError beginText message retryable)) c.failedAttempt
  | unwaited {message : String} {f : Fault} :
      (x.reply .begin attempt).failure? = some message → Lock.Says message →
      attempt < c.settings.maxRetries → unwaited? x c attempt = some f →
      Ending x c attempt (.error (.fault f)) c.failedAttempt

lemma says_text_begin_iff {message : String} :
    Lock.Says (x.wording.text message beginText []) ↔ Lock.Says message := by
  have hbegin : ¬ Lock.Says beginText := by
    rw [← Lock.isLockText_iff]
    decide +kernel
  rw [x.wording.says_text_iff, or_iff_left]
  rintro (h | ⟨h, -⟩)
  · exact hbegin h
  · exact h rfl

lemma tryBegin_cases (x : Exchange) (c : Connection) :
    ∃ r x', tryBegin.run (x, c) = (.ok r, x', c) ∧
    (∀ i, x'.reply .begin i = x.reply .begin (i + 1)) ∧ x'.clock = x.clock ∧
    ((r = none ∧ (x.reply .begin 0).failure? = none ∧
        x'.events = x.events ++ [.executed c.number beginText [] true]) ∨
      ∃ message locked, r = some (message, locked) ∧ (locked = true ↔ Lock.Says message) ∧
        (x.reply .begin 0).failure? = some message ∧ x'.events = x.events ++ c.failedAttempt) := by
  have hevents := x.ask_events .begin (.executed c.number beginText [])
  have hreply := x.reply_ask .begin (.executed c.number beginText [])
  have hclock := x.ask_clock .begin (.executed c.number beginText [])
  rw [run_tryBegin]
  dsimp only
  rw [x.ask_fst] at hevents ⊢
  cases h : (x.reply .begin 0).failure? with
  | none =>
    rw [h] at hevents
    exact ⟨_, _, rfl, hreply, hclock, Or.inl ⟨rfl, rfl, hevents⟩⟩
  | some message =>
    rw [h] at hevents
    refine ⟨_, _, rfl, hreply, hclock, Or.inr ⟨message, _, rfl, ?_, rfl, ?_⟩⟩
    · rw [Lock.isLockText_iff, says_text_begin_iff]
    · rw [Exchange.record, hevents, List.append_assoc]
      rfl

section Steps

variable {x' : Exchange} {message : String} {locked : Bool}

lemma run_beginFrom_of_taken (attempt left : Nat) (h : tryBegin.run (x, c) = (.ok none, x', c)) :
    (beginFrom attempt left).run (x, c) = (.ok (), x', c) := by
  cases left with
  | zero => rw [beginFrom, Job.run_bind, h]; rfl
  | succ left => rw [beginFrom, Job.run_bind, h]; rfl

lemma run_beginFrom_of_refused (attempt : Nat) (hlast : locked = true → left = 0)
    (h : tryBegin.run (x, c) = (.ok (some (message, locked)), x', c)) :
    (beginFrom attempt left).run (x, c) =
      (.error (engineError beginText message locked), x', c) := by
  cases left with
  | zero => rw [beginFrom, Job.run_bind, h]; rfl
  | succ left =>
    cases locked with
    | false => rw [beginFrom, Job.run_bind, h]; rfl
    | true => cases hlast rfl

lemma run_beginFrom_of_locked (attempt left : Nat)
    (h : tryBegin.run (x, c) = (.ok (some (message, true)), x', c)) :
    (beginFrom attempt (left + 1)).run (x, c) =
      match unwaited? x' c attempt with
      | some f => (.error (.fault f), x', c)
      | none => (beginFrom (attempt + 1) left).run
          (x'.record (.slept (c.settings.delay attempt)), c) := by
  rw [beginFrom, Job.run_bind, h]
  change (wait attempt >>= fun _ => beginFrom (attempt + 1) left).run (x', c) = _
  rw [Job.run_bind, run_wait, DatabaseSettings.backoff_eq, unwaited?]
  by_cases hattempt : attempt < 1024
  · rw [if_pos hattempt, if_pos hattempt]
    dsimp only
    cases x'.clock (c.settings.delay attempt) <;> rfl
  · rw [if_neg hattempt, if_neg hattempt]

end Steps

structure After (x₀ : Exchange) (attempt : Nat) (x : Exchange) : Prop where
  reply : ∀ i, x.reply .begin i = x₀.reply .begin (attempt + i)
  clock : x.clock = x₀.clock

lemma step_beginFrom (hleft : attempt + left = c.settings.maxRetries) (hx : After x₀ attempt x) :
    (∃ r x' new, (beginFrom attempt left).run (x, c) = (r, x', c) ∧ Ending x₀ c attempt r new ∧
      x'.events = x.events ++ new) ∨
    Missed x₀ c attempt ∧ ∃ l x', left = l + 1 ∧ After x₀ (attempt + 1) x' ∧
      (beginFrom attempt left).run (x, c) = (beginFrom (attempt + 1) l).run (x', c) ∧
      x'.events = x.events ++ c.waitedAttempt attempt := by
  obtain ⟨_, x', hrun, hnext, hclock, ⟨rfl, htaken, hevents⟩ |
    ⟨message, locked, rfl, hlocked, hmessage, hevents⟩⟩ := tryBegin_cases x c
  · rw [hx.reply] at htaken
    exact Or.inl ⟨_, _, _, run_beginFrom_of_taken attempt left hrun, .taken htaken, hevents⟩
  rw [hx.reply] at hmessage
  -- it goes on only if the lock is held elsewhere and an attempt is left
  by_cases hlast : locked = true → left = 0
  · refine Or.inl ⟨_, _, _, run_beginFrom_of_refused attempt hlast hrun,
      .refused hmessage hlocked fun hsays => ?_, hevents⟩
    have hleft' := hlast (hlocked.mpr hsays)
    omega
  rw [Classical.not_imp] at hlast
  obtain ⟨rfl, hmore⟩ := hlast
  obtain ⟨l, rfl⟩ := Nat.exists_eq_succ_of_ne_zero hmore
  have hsays := hlocked.mp rfl
  have hrun' := run_beginFrom_of_locked attempt l hrun
  have hwait : unwaited? x' c attempt = unwaited? x₀ c attempt := by
    rw [unwaited?, unwaited?, hclock, hx.clock]
  rw [hwait] at hrun'
  cases hf : unwaited? x₀ c attempt with
  | some f =>
    rw [hf] at hrun'
    exact Or.inl ⟨_, _, _, hrun', .unwaited hmessage hsays (by omega) hf, hevents⟩
  | none =>
    rw [hf] at hrun'
    refine Or.inr ⟨⟨⟨message, hmessage, hsays⟩, hf⟩, l, _, rfl, ⟨fun i => ?_, ?_⟩, hrun', ?_⟩
    · rw [Nat.add_right_comm]
      exact (hnext i).trans (hx.reply (i + 1))
    · exact hclock.trans hx.clock
    · rw [Exchange.record, hevents, List.append_assoc]
      rfl

lemma exists_run_beginFrom (hleft : attempt + left = c.settings.maxRetries)
    (hx : After x₀ attempt x) :
    ∃ last, attempt ≤ last ∧ last ≤ c.settings.maxRetries ∧
      (∀ i, attempt ≤ i → i < last → Missed x₀ c i) ∧
      ∃ r x' new, (beginFrom attempt left).run (x, c) = (r, x', c) ∧ Ending x₀ c last r new ∧
        x'.events =
          x.events ++ (List.range' attempt (last - attempt)).flatMap c.waitedAttempt ++ new := by
  -- `After` tells the exchange of the next attempt by the first one, which `Missed` speaks of
  induction left using Nat.strong_induction_on generalizing attempt x with
  | _ left ih =>
    obtain ⟨r, x', new, hrun, hending, hevents⟩ | ⟨hmissed, l, x', rfl, hx', hrun, hevents⟩ :=
      step_beginFrom hleft hx
    · refine ⟨attempt, Nat.le_refl _, by omega, fun i hi hi' => absurd hi' hi.not_gt, r, x', new,
        hrun, hending, ?_⟩
      rw [Nat.sub_self, List.range'_zero, List.flatMap_nil, List.append_nil, hevents]
    · obtain ⟨last, hle, hmax, hothers, r, x'', new, hrun', hending, hevents'⟩ :=
        ih l (Nat.lt_succ_self l) (by omega) hx'
      refine ⟨last, by omega, hmax, fun i hi hi' => ?_, r, x'', new, hrun.trans hrun', hending, ?_⟩
      · rcases hi.eq_or_lt with rfl | hi
        · exact hmissed
        · exact hothers i hi hi'
      · have hrange : last - attempt = last - (attempt + 1) + 1 := by omega
        rw [hevents', hevents, hrange, List.range'_succ, List.flatMap_cons]
        simp only [List.append_assoc]

lemma exists_run_takeLock (x : Exchange) (c : Connection) :
    ∃ last ≤ c.settings.maxRetries, (∀ i < last, Missed x c i) ∧
      ∃ r x' new, takeLock.run (x, c) = (r, x', c) ∧ Ending x c last r new ∧
        x'.events = x.events ++ (List.range last).flatMap c.waitedAttempt ++ new := by
  have hx : After x 0 x := ⟨fun i => by rw [Nat.zero_add], rfl⟩
  obtain ⟨last, -, hmax, hmissed, r, x', new, hrun, hending, hevents⟩ :=
    exists_run_beginFrom (Nat.zero_add c.settings.maxRetries) hx
  rw [Nat.sub_zero, ← List.range_eq_range'] at hevents
  exact ⟨last, hmax, fun i => hmissed i i.zero_le, r, x', new, hrun, hending, hevents⟩

lemma Missed.not_ending {r : Except Failure Unit} {new : List Event} (h : Missed x c attempt)
    (hmore : attempt < c.settings.maxRetries) : ¬ Ending x c attempt r new := by
  obtain ⟨⟨message, hmessage, hsays⟩, hwait⟩ := h
  intro hending
  cases hending with
  | taken htaken =>
    rw [htaken] at hmessage
    cases hmessage
  | refused hrefused hretryable hlast =>
    rw [hrefused] at hmessage
    exact absurd (hlast (Option.some.inj hmessage ▸ hsays)) hmore.ne
  | unwaited hlocked hsays' hmore' hf =>
    rw [hwait] at hf
    cases hf

lemma Ending.eq {r r' : Except Failure Unit} {new new' : List Event}
    (h : Ending x c attempt r new) (h' : Ending x c attempt r' new') : r = r' := by
  cases h with
  | taken hnone =>
    cases h' with
    | taken => rfl
    | refused hmessage => cases hnone.symm.trans hmessage
    | unwaited hmessage => cases hnone.symm.trans hmessage
  | refused hmessage hretryable hlast =>
    cases h' with
    | taken hnone => cases hnone.symm.trans hmessage
    | refused hmessage' hretryable' =>
      obtain rfl := Option.some.inj (hmessage.symm.trans hmessage')
      rw [Bool.eq_iff_iff.mpr (hretryable.trans hretryable'.symm)]
    | unwaited hmessage' hsays hmore =>
      obtain rfl := Option.some.inj (hmessage.symm.trans hmessage')
      exact absurd (hlast hsays) hmore.ne
  | unwaited hmessage hsays hmore hf =>
    cases h' with
    | taken hnone => cases hnone.symm.trans hmessage
    | refused hmessage' _ hlast =>
      obtain rfl := Option.some.inj (hmessage.symm.trans hmessage')
      exact absurd (hlast hsays) hmore.ne
    | unwaited _ _ _ hf' => rw [Option.some.inj (hf.symm.trans hf')]

lemma run_takeLock_of_ending {last : Nat} {r : Except Failure Unit} {new : List Event}
    (hmax : last ≤ c.settings.maxRetries) (hmissed : ∀ i < last, Missed x c i)
    (hending : Ending x c last r new) : (takeLock.run (x, c)).1 = r := by
  obtain ⟨last', hmax', hmissed', r', x', new', hrun, hending', -⟩ := exists_run_takeLock x c
  rw [hrun]
  rcases lt_trichotomy last last' with hlt | rfl | hlt
  · exact absurd hending ((hmissed' last hlt).not_ending (hlt.trans_le hmax'))
  · exact hending'.eq hending
  · exact absurd hending' ((hmissed last' hlt).not_ending (hlt.trans_le hmax))

lemma takeLock_fault_iff (x : Exchange) (c : Connection) (f : Fault) :
    (takeLock.run (x, c)).1 = .error (.fault f) ↔
      ∃ last < c.settings.maxRetries, (∀ i < last, Missed x c i) ∧
        (∃ message, (x.reply .begin last).failure? = some message ∧ Lock.Says message) ∧
        unwaited? x c last = some f := by
  constructor
  · obtain ⟨last, hmax, hmissed, r, x', new, hrun, hending, -⟩ := exists_run_takeLock x c
    rw [hrun]
    rintro rfl
    cases hending with
    | unwaited hmessage hsays hmore hf => exact ⟨last, hmore, hmissed, ⟨_, hmessage, hsays⟩, hf⟩
  · rintro ⟨last, hmore, hmissed, ⟨message, hmessage, hsays⟩, hf⟩
    exact run_takeLock_of_ending hmore.le hmissed (.unwaited hmessage hsays hmore hf)

/-- Taking the write lock makes one attempt more than it has retries, at most. It stops at the first
one that succeeds or fails for another reason, rolls back each one that fails, and waits after each
that is followed by another: the base delay doubled each time, up to the greatest. It fails with
what the engine said last, unless a wait comes to nothing: the 1025th is too long to be computed,
whatever the greatest delay, and others may be refused by the clock. -/
theorem takeLock_attempts (x : Exchange) (c : Connection) :
    (∃ last ≤ c.settings.maxRetries, (∀ i < last, Missed x c i) ∧
      ∃ r x' new, takeLock.run (x, c) = (r, x', c) ∧ Ending x c last r new ∧
        x'.events = x.events ++ (List.range last).flatMap c.waitedAttempt ++ new) ∧
    (∀ f, (takeLock.run (x, c)).1 = .error (.fault f) ↔
      ∃ last < c.settings.maxRetries, (∀ i < last, Missed x c i) ∧
        (∃ message, (x.reply .begin last).failure? = some message ∧ Lock.Says message) ∧
        unwaited? x c last = some f) ∧
    (c.settings.retryBaseDelay.isFinite = true → c.settings.retryMaxDelay.isFinite = true →
      ∀ attempt < 1024,
        ((c.settings.delay attempt).isFinite = true → (c.settings.delay attempt).value =
          min (c.settings.retryBaseDelay.value * 2 ^ attempt) c.settings.retryMaxDelay.value) ∧
        (0 ≤ c.settings.retryBaseDelay.value → (c.settings.delay attempt).isFinite = true)) := by
  refine ⟨exists_run_takeLock x c, takeLock_fault_iff x c, fun hbase hmax attempt hattempt => ?_⟩
  obtain ⟨hvalue, hfinite⟩ :=
    (Double.represents_mul_two_pow _ hbase hattempt).lesser hmax
  exact ⟨hvalue, fun hpos => hfinite (mul_nonneg hpos (by positivity))⟩

namespace Patient

def patience : DatabaseSettings := { maxRetries := 1025 }

def connection : Connection := ⟨.writer, patience, 1, 1, {}, false⟩

def exchange : Exchange := { replies := fun _ => .replicate 1025 (.failed "database is locked") }

end Patient

open Patient in
/-- The wait after the 1025th attempt would be two seconds, as the waits before it were. -/
theorem takeLock_unwaited :
    (takeLock.run (exchange, connection)).1 = .error (.fault .numberTooLarge) ∧
      min (patience.retryBaseDelay.value * 2 ^ 1024) patience.retryMaxDelay.value = 2 := by
  have hlocked : Lock.Says "database is locked" := Lock.isLockText_iff.mp (by decide +kernel)
  have hreply : ∀ i ≤ 1024, exchange.reply .begin i = .failed "database is locked" := by
    intro i hi
    have hget : (List.replicate 1025 (Reply.failed "database is locked"))[i]? =
        some (.failed "database is locked") := List.getElem?_replicate_of_lt (by omega)
    rw [Exchange.reply, exchange, hget, Option.getD_some]
  refine ⟨(takeLock_fault_iff _ _ _).mpr ⟨1024, by decide, fun i hi => ⟨⟨_, ?_, hlocked⟩, ?_⟩,
    ⟨_, ?_, hlocked⟩, if_neg (by decide)⟩, ?_⟩
  · rw [hreply i hi.le]
    rfl
  · exact if_pos hi
  · rw [hreply 1024 (Nat.le_refl _)]
    rfl
  · have hmax : patience.retryMaxDelay.value = 2 := by
      have htwo := Double.value_two_pow (k := 1) (by decide)
      rwa [pow_one] at htwo
    have hbase : (1 / 16 : ℚ) ≤ patience.retryBaseDelay.value := by
      have hparts : patience.retryBaseDelay.isNegative = false ∧
          patience.retryBaseDelay.factor = 7205759403792794 ∧
          patience.retryBaseDelay.power = -56 := by decide +kernel
      rw [Double.value, hparts.1, hparts.2.1, hparts.2.2]
      norm_num
    rw [hmax]
    refine min_eq_right ?_
    calc (2 : ℚ) = 1 / 16 * 2 ^ 5 := by norm_num
      _ ≤ patience.retryBaseDelay.value * 2 ^ 1024 :=
        mul_le_mul hbase (pow_le_pow_right₀ (by norm_num) (by decide)) (by norm_num)
          (le_trans (by norm_num) hbase)

end Connection

end Tablewright
