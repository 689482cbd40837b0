import Tablewright.Proofs.Engine.Course
import Tablewright.Proofs.Engine.Store

namespace Tablewright

def Event.Bounds : Event → Prop
  | connected _ _ | closed _ => True
  | _ => False

namespace Connection

open Job (Moves)

structure Located (w w' : Exchange × Connection) : Prop where
  number : w'.2.number = w.2.number
  events : ∃ new, w'.1.events = w.1.events ++ new ∧ ∀ e ∈ new, e.Of w.2.number

structure Works (w w' : Exchange × Connection) : Prop where
  connection : w'.2 = { w.2 with cache := w'.2.cache }
  attempts : w'.1.attempts = w.1.attempts
  events : ∃ new, w'.1.events = w.1.events ++ new ∧ ∀ e ∈ new, e.Of w.2.number ∧ ¬ e.Bounds

namespace Works

variable {w w' w'' : Exchange × Connection}

lemma number (h : Works w w') : w'.2.number = w.2.number := by rw [h.connection]

lemma closed (h : Works w w') : w'.2.closed = w.2.closed := by rw [h.connection]

lemma of_record {e : Event} (hattempts : w'.1.attempts = w.1.attempts) (hsame : w'.2 = w.2)
    (hevents : w'.1.events = w.1.events ++ [e]) (he : e.Of w.2.number ∧ ¬ e.Bounds) :
    Works w w' :=
  ⟨by rw [hsame], hattempts, [e], hevents, fun _ hf => List.mem_singleton.mp hf ▸ he⟩

lemma of_cached {cache : StatementCache String} (hattempts : w'.1.attempts = w.1.attempts)
    (hcached : w'.2 = { w.2 with cache }) (hevents : w'.1.events = w.1.events) : Works w w' :=
  ⟨by rw [hcached], hattempts, [], by rw [hevents, List.append_nil], nofun⟩

lemma refl (w : Exchange × Connection) : Works w w := of_cached rfl rfl rfl

lemma trans (h : Works w w') (h' : Works w' w'') : Works w w'' := by
  obtain ⟨new, hevents, hnew⟩ := h.events
  obtain ⟨new', hevents', hnew'⟩ := h'.events
  refine ⟨?_, h'.attempts.trans h.attempts, new ++ new',
    by rw [hevents', hevents, List.append_assoc], fun e he => ?_⟩
  · rw [h'.connection, h.connection]
  · rcases List.mem_append.mp he with he | he
    · exact hnew e he
    · exact h.number ▸ hnew' e he

instance : IsPreorder (Exchange × Connection) Works where
  refl := refl
  trans _ _ _ := trans

lemma ask {request : Request} {event : Bool → Event}
    (h : ∀ ok, (event ok).Of w.2.number ∧ ¬ (event ok).Bounds) :
    Works w ((Job.sure (Job.ask request event)).run w).2 :=
  of_record (w.1.ask_attempts request event) rfl (w.1.ask_events request event) (h _)

lemma rollback (w : Exchange × Connection) : Works w (Connection.rollback w).2 :=
  of_record rfl rfl rfl ⟨fun _ hm => (Option.some.inj hm).symm, id⟩

lemma located (h : Works w w') : Located w w' := by
  obtain ⟨new, hevents, hnew⟩ := h.events
  exact ⟨h.number, new, hevents, fun e he => (hnew e he).1⟩

end Works

lemma of_connection {n : Nat} {e : Event} (h : e.connection? = some n) : e.Of n := fun _ hm =>
  (Option.some.inj (h.symm.trans hm)).symm

lemma works_transacts : Transacts Works where
  begun _ _ := .ask fun _ => ⟨of_connection rfl, id⟩
  rolledBack x c := .rollback (x, c)
  slept _ _ delay := .of_record (e := .slept delay) rfl rfl rfl ⟨nofun, id⟩
  committed _ _ := .ask fun _ => ⟨of_connection rfl, id⟩

lemma works_inspected (x : Exchange) (c : Connection) :
    Works (x, c) ((x.inspect c.number).2, c) :=
  .of_record rfl rfl (x.inspect_events c.number) ⟨of_connection rfl, id⟩

lemma works_execute (h : Handle String) (values : List Value) :
    Moves Works (execute h values) :=
  moves_execute fun _ _ => .ask fun _ => ⟨of_connection rfl, id⟩

lemma works_prepared (sql : String) : Moves Works (prepared sql) := by
  rintro ⟨x, c⟩
  rw [run_prepared]
  cases c.cache.handles.lookup sql with
  | none => exact .of_cached rfl rfl rfl
  | some h => exact .of_cached rfl rfl rfl

lemma works_run (c : Compiled) (given : Supplied) : Moves Works (run c given) :=
  .bind (.ofExcept _ _) fun values => .bind (works_prepared c.sql) fun h =>
    works_execute h values

lemma works_write (c : Compiled) (given : Supplied) : Moves Works (write c given) :=
  .bind (.ofExcept _ _) fun values => works_transacts.inTransaction (works_run c (.sequence values))

lemma works_read (c : Compiled) (given : Supplied) : Moves Works (read c given) :=
  .ensuring (works_run c given) Works.rollback

lemma works_readCatalogOnly : Moves Works readCatalogOnly :=
  moves_readCatalogOnly works_inspected works_transacts.rolledBack

lemma works_runScript (script : String) : Moves Works (runScript script) := by
  refine .subject_bind fun w => Job.move_bind (.ask fun _ => ⟨of_connection rfl, id⟩) fun reply => ?_
  cases reply.failure? with
  | none => exact .pure _
  | some message => exact .throw _

lemma works_migrate (declared : Schema) (readOnly : Bool) :
    Moves Works (migrate declared readOnly) := by
  cases readOnly with
  | true => exact moves_check works_inspected works_transacts.rolledBack declared
  | false =>
    refine works_transacts.migrate works_inspected fun live plan _ => moves_apply ?_
    exact fun _ _ _ _ => .ask fun _ => ⟨of_connection rfl, id⟩

end Connection

end Tablewright
