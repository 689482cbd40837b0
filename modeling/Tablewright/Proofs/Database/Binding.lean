import Mathlib.Data.List.Forall2
import Tablewright.Database.Query
import Tablewright.Proofs.Outcome

namespace Tablewright

namespace Value

variable {n : String} {v : Value} {given : List (Value × Value)}

lemma sameKey_text_iff {k : Value} : k.sameKey (.text n) = true ↔ k = .text n := by
  cases k with
  | real x =>
    cases hx : x.toInt? <;> simp [sameKey, asNumber?, hx]
  | _ => simp [sameKey, asNumber?]

lemma find?_eq_none_iff : find? n given = none ↔ ∀ w, (.text n, w) ∉ given := by
  rw [find?, Option.map_eq_none_iff, List.find?_eq_none]
  constructor
  · exact fun h w hw => h _ hw (sameKey_text_iff.mpr rfl)
  · rintro h ⟨k, w⟩ hw hk
    obtain rfl := sameKey_text_iff.mp hk
    exact h w hw

lemma mem_of_find? (h : find? n given = some v) : (.text n, v) ∈ given := by
  obtain ⟨⟨k, w⟩, hfound, rfl⟩ := Option.map_eq_some_iff.mp h
  have hkey := List.find?_some hfound
  obtain rfl : k = .text n := sameKey_text_iff.mp hkey
  exact List.mem_of_find?_eq_some hfound

lemma find?_eq_some_iff (hkeys : given.Pairwise fun a b => a.1.sameKey b.1 = false) :
    find? n given = some v ↔ (.text n, v) ∈ given := by
  refine ⟨mem_of_find?, fun hv => ?_⟩
  induction given with
  | nil => cases hv
  | cons e given ih =>
    rw [List.pairwise_cons] at hkeys
    rw [find?, List.find?_cons]
    rcases List.mem_cons.mp hv with rfl | hv
    · rw [sameKey_text_iff.mpr rfl]
      rfl
    · rw [hkeys.1 _ hv]
      exact ih hkeys.2 hv

end Value

namespace Slot

/-- What a slot is filled with from a mapping: the value of the key that is its name, else the value
that it was built with. -/
inductive FilledBy (given : List (Value × Value)) (s : Slot) : Value → Prop
  | named {n : String} {v : Value} : s.name = some n → (.text n, v) ∈ given → FilledBy given s v
  | captured {v : Value} : (∀ n, s.name = some n → ∀ w, (.text n, w) ∉ given) →
      s.value = some v → FilledBy given s v

variable {given : List (Value × Value)} {s : Slot} {v : Value}

lemma fill_eq_some_iff (hkeys : given.Pairwise fun a b => a.1.sameKey b.1 = false) :
    s.fill given = some v ↔ s.FilledBy given v := by
  rw [fill, Option.or_eq_some_iff, Option.bind_eq_some_iff]
  constructor
  · rintro (⟨n, hn, hv⟩ | ⟨hnone, hv⟩)
    · exact .named hn (Value.mem_of_find? hv)
    · exact .captured (fun n hn => Value.find?_eq_none_iff.mp (Option.bind_eq_none_iff.mp hnone n hn)) hv
  · rintro (⟨hn, hv⟩ | ⟨hnone, hv⟩)
    · exact Or.inl ⟨_, hn, (Value.find?_eq_some_iff hkeys).mpr hv⟩
    · refine Or.inr ⟨Option.bind_eq_none_iff.mpr fun n hn => ?_, hv⟩
      exact Value.find?_eq_none_iff.mpr (hnone n hn)

lemma isSome_fill_iff : (s.fill given).isSome ↔
    s.value.isSome ∨ ∃ n v, s.name = some n ∧ (.text n, v) ∈ given := by
  have hfound : (s.name.bind fun n => Value.find? n given).isSome ↔
      ∃ n v, s.name = some n ∧ (.text n, v) ∈ given := by
    cases s.name with
    | none => simp
    | some n =>
      rw [Option.bind_some, Option.isSome_iff_ne_none, Ne, Value.find?_eq_none_iff]
      simp
  rw [fill, Option.isSome_or, Bool.or_eq_true, hfound, or_comm]

end Slot

namespace Compiled

variable {sql : String} {given : List (Value × Value)} {slots : List Slot} {vs : List Value}
  {e : Failure}

lemma fillAll_eq_ok_iff : fillAll sql given slots = .ok vs ↔
    List.Forall₂ (fun s v => s.fill given = some v) slots vs := by
  induction slots generalizing vs with
  | nil => simp [fillAll, eq_comm]
  | cons s slots ih =>
    rw [fillAll, List.forall₂_cons_left_iff]
    cases hs : s.fill given with
    | none => simp
    | some v =>
      simp only [map_eq_ok_iff, ih, Option.some.injEq]
      constructor
      · rintro ⟨rest, hrest, rfl⟩
        exact ⟨v, rest, rfl, hrest, rfl⟩
      · rintro ⟨w, rest, rfl, hrest, rfl⟩
        exact ⟨rest, hrest, rfl⟩

lemma exists_fillAll_iff : (∃ vs, fillAll sql given slots = .ok vs) ↔
    ∀ s ∈ slots, (s.fill given).isSome := by
  induction slots with
  | nil => simp [fillAll]
  | cons s slots ih =>
    rw [List.forall_mem_cons, ← ih, fillAll]
    cases hs : s.fill given with
    | none => simp
    | some v => simp [map_eq_ok_iff]

lemma fillAll_eq_error (h : fillAll sql given slots = .error e) :
    ∃ s ∈ slots, e = .execution (.unboundParameter sql s.label) := by
  induction slots with
  | nil => cases h
  | cons s slots ih =>
    rw [fillAll] at h
    split at h
    · exact ⟨s, List.mem_cons_self, (Except.error.inj h).symm⟩
    · obtain ⟨t, ht, he⟩ := ih (map_eq_error_iff.mp h)
      exact ⟨t, List.mem_cons_of_mem _ ht, he⟩

lemma bind_sequence_iff (c : Compiled) (values vs : List Value) :
    c.bind (.sequence values) = .ok vs ↔ values.length = c.slots.length ∧ vs = values := by
  rw [bind]
  split
  · next h => simp [h, eq_comm]
  · next h => simp [h]

lemma length_of_bind {c : Compiled} {g : Supplied} (h : c.bind g = .ok vs) :
    vs.length = c.slots.length := by
  cases g with
  | nothing | named given => exact (fillAll_eq_ok_iff.mp h).length_eq.symm
  | sequence values =>
    obtain ⟨hlength, rfl⟩ := (c.bind_sequence_iff values vs).mp h
    exact hlength
  | single | uncountable kind => cases h

lemma bind_eq_error {c : Compiled} {g : Supplied} (hg : ∀ kind, g ≠ .uncountable kind)
    (h : c.bind g = .error e) :
    ∃ x, e = .execution x ∧ x.report.code = .executionBindingMismatch := by
  cases g with
  | nothing | named given =>
    obtain ⟨s, -, rfl⟩ := fillAll_eq_error h
    exact ⟨_, rfl, rfl⟩
  | sequence values =>
    rw [bind] at h
    split at h
    · cases h
    · exact ⟨_, (Except.error.inj h).symm, rfl⟩
  | single => exact ⟨_, (Except.error.inj h).symm, rfl⟩
  | uncountable kind => exact absurd rfl (hg kind)

end Compiled

def Connection.send (sql : String) (values : List Value) : Job Connection ResultSet := do
  execute (← prepared sql) values

def Database.send (c : Compiled) (values : List Value) (slot : Nat) : Job Database ResultSet := do
  ensureOpen
  if c.isWrite then
    let result ← onWriter (Connection.inTransaction (Connection.send c.sql values))
    if c.isDdl then Job.sure invalidateCaches
    return result
  else
    let read := Job.ensuring (Connection.send c.sql values) Connection.rollback
    if (← Job.subject).readsApart then onReader slot read else onWriter read

section Layers

variable {c : Compiled} {g : Supplied} {vs : List Value}

lemma Job.ofExcept_ok_bind {σ α β : Type} (a : α) (next : α → Job σ β) :
    (Job.ofExcept id (.ok a) >>= next) = next a := pure_bind a next

lemma Connection.run_of_bind (h : c.bind g = .ok vs) : Connection.run c g = send c.sql vs := by
  rw [run, h, Job.ofExcept_ok_bind]
  rfl

lemma Connection.write_of_bind (h : c.bind g = .ok vs) :
    Connection.write c g = inTransaction (send c.sql vs) := by
  have hagain := (c.bind_sequence_iff vs vs).mpr ⟨Compiled.length_of_bind h, rfl⟩
  rw [write, h, Job.ofExcept_ok_bind, run_of_bind hagain]

lemma Database.run_of_bind (h : c.bind g = .ok vs) (slot : Nat) :
    Database.run c g slot = Database.send c vs slot := by
  have hagain := (c.bind_sequence_iff vs vs).mpr ⟨Compiled.length_of_bind h, rfl⟩
  have hread : Connection.read c (.sequence vs) =
      Job.ensuring (Connection.send c.sql vs) Connection.rollback := by
    rw [Connection.read, Connection.run_of_bind hagain]
  rw [run, h, Job.ofExcept_ok_bind]
  dsimp only
  rw [Connection.write_of_bind hagain, hread]
  rfl

end Layers

/-- Binding delivers a value for each slot, or fails and says that the values do not fit. What it
delivers binds to itself, so the layers that run a statement bind its values as if once; where the
values do not fit, none of them runs anything. -/
theorem Compiled.bind_delivers (c : Compiled) :
    c.bind .nothing = c.bind (.named []) ∧
    ((∃ vs, c.bind .nothing = .ok vs) ↔ ∀ s ∈ c.slots, s.value.isSome) ∧
    (∀ given, (∃ vs, c.bind (.named given) = .ok vs) ↔
      ∀ s ∈ c.slots, s.value.isSome ∨ ∃ n v, s.name = some n ∧ (.text n, v) ∈ given) ∧
    (∀ given vs, (given.Pairwise fun a b => a.1.sameKey b.1 = false) →
      (c.bind (.named given) = .ok vs ↔ List.Forall₂ (Slot.FilledBy given) c.slots vs)) ∧
    (∀ values vs, c.bind (.sequence values) = .ok vs ↔
      values.length = c.slots.length ∧ vs = values) ∧
    (∀ g e, (∀ kind, g ≠ .uncountable kind) → c.bind g = .error e →
      ∃ x, e = .execution x ∧ x.report.code = .executionBindingMismatch) ∧
    (∀ g e, c.bind g = .error e → ∀ slot, Database.run c g slot = throw e) ∧
    ∀ g vs, c.bind g = .ok vs → c.bind (.sequence vs) = .ok vs ∧
      Connection.run c g = Connection.send c.sql vs ∧
      Connection.write c g = Connection.inTransaction (Connection.send c.sql vs) ∧
      ∀ slot, Database.run c g slot = Database.send c vs slot := by
  have hnothing : (∃ vs, c.bind .nothing = .ok vs) ↔ ∀ s ∈ c.slots, s.value.isSome := by
    refine exists_fillAll_iff.trans (forall₂_congr fun s _ => ?_)
    simp [Slot.isSome_fill_iff]
  refine ⟨rfl, hnothing, fun given => ?_, fun given vs hkeys => ?_, c.bind_sequence_iff,
    fun g e hg h => bind_eq_error hg h, fun g e h slot => ?_, fun g vs h => ?_⟩
  · exact exists_fillAll_iff.trans (forall₂_congr fun s _ => Slot.isSome_fill_iff)
  · exact fillAll_eq_ok_iff.trans
      ⟨.imp fun _ _ => (Slot.fill_eq_some_iff hkeys).mp,
        .imp fun _ _ => (Slot.fill_eq_some_iff hkeys).mpr⟩
  · rw [Database.run, h]
    rfl
  · exact ⟨(c.bind_sequence_iff vs vs).mpr ⟨length_of_bind h, rfl⟩, Connection.run_of_bind h,
      Connection.write_of_bind h, Database.run_of_bind h⟩

namespace Shared

def compiled : Compiled where
  sql := "SELECT ?, ?, ?"
  slots := [⟨0, none, some "who"⟩, ⟨1, some (.int 7), none⟩, ⟨2, some (.int 8), some "who"⟩]

def given : List (Value × Value) := [(.int 1, .int 1), (.text "who", .null)]

end Shared

open Shared in
theorem Compiled.bind_delivers_shared :
    (given.Pairwise fun a b => a.1.sameKey b.1 = false) ∧
      (∀ kind, Supplied.single ≠ .uncountable kind) ∧
      compiled.bind (.named given) = .ok [.null, .int 7, .null] ∧
      List.Forall₂ (Slot.FilledBy given) compiled.slots [.null, .int 7, .null] ∧
      compiled.bind (.sequence [.null, .int 7, .null]) = .ok [.null, .int 7, .null] ∧
      ¬ ∃ vs, compiled.bind .nothing = .ok vs := by
  have hkeys : given.Pairwise fun a b => a.1.sameKey b.1 = false := by
    simp [given, Value.sameKey, Value.asNumber?]
  obtain ⟨-, hnothing, -, hnamed, -, -, -, hagain⟩ := bind_delivers compiled
  have hbind : compiled.bind (.named given) = .ok [.null, .int 7, .null] := rfl
  refine ⟨hkeys, nofun, hbind, (hnamed _ _ hkeys).mp hbind, (hagain _ _ hbind).1, ?_⟩
  rw [hnothing]
  simp [compiled]

end Tablewright
