import Tablewright.Proofs.Settings.Admitted
import Tablewright.Proofs.Settings.Load

namespace Tablewright

namespace Checked

variable {α β : Type}

def broken? : Checked α → Option Fault
  | broken f => some f
  | _ => none

lemma broken?_map (f : α → β) (x : Checked α) : (f <$> x).broken? = x.broken? := by
  cases x <;> rfl

lemma broken?_seq (f : Checked (α → β)) (x : Checked α) :
    (f <*> x).broken? = f.broken?.or x.broken? := by
  cases f <;> cases x <;> rfl

lemma broken?_under (name : String) (x : Checked α) : (x.under name).broken? = x.broken? := by
  cases x <;> rfl

lemma broken?_ofMisfit (input : Value) (r : Except Misfit α) :
    (ofMisfit input r).broken? = none := by
  cases r <;> rfl

lemma broken?_ofRefusal {input : Value} {r : Except Refusal α} {f : Fault} :
    (ofRefusal input r).broken? = some f ↔ r = .error (.fault f) := by
  rcases r with (_ | _) | _ <;> simp [ofRefusal, broken?]

lemma broken?_field (entries : List (Value × Value)) (name : String) (fallback : α)
    (read : Value → Checked α) : (field entries name fallback read).broken? =
      (Value.find? name entries).bind fun v => (read v).broken? := by
  rw [field]
  cases Value.find? name entries with
  | none => rfl
  | some v => exact broken?_under name (read v)

lemma broken?_each (read : Value → Checked α) (start : Nat) (items : List Value) :
    (each read start items).broken? = items.findSome? fun v => (read v).broken? := by
  induction items generalizing start with
  | nil => rfl
  | cons v rest ih =>
    rw [each, broken?_seq, broken?_map, broken?_under, ih, List.findSome?_cons]
    cases (read v).broken? <;> rfl

end Checked

namespace Value

def entry? (name : String) : Value → Option Value
  | map entries => find? name (freeEntries entries)
  | _ => none

def members : Value → List Value
  | list items => freeItems .list items
  | tuple items => freeItems .tuple items
  | set items => items
  | _ => []

end Value

lemma Checked.broken?_list {α : Type} (read : Value → Checked α) (v : Value) :
    (Checked.list read v).broken? = v.members.findSome? fun w => (read w).broken? := by
  cases v with
  | list items | tuple items | set items => exact broken?_each read 0 _
  | _ => rfl

section Single

variable {α β : Type} {g : α → Option β} {b c : β} {p : α → Prop}

lemma bind_eq_single_iff (h : ∀ a b, g a = some b ↔ b = c ∧ p a) {x : Option α} :
    x.bind g = some b ↔ b = c ∧ ∃ a, x = some a ∧ p a := by
  cases x <;> simp [h]

lemma findSome?_eq_single_iff (h : ∀ a b, g a = some b ↔ b = c ∧ p a) {items : List α} :
    items.findSome? g = some b ↔ b = c ∧ ∃ a ∈ items, p a := by
  induction items with
  | nil => simp
  | cons a rest ih =>
    rw [List.findSome?_cons, List.exists_mem_cons_iff]
    cases ha : g a with
    | none =>
      have hnot : ¬ p a := fun hp => by
        have hsome := (h a c).mpr ⟨rfl, hp⟩
        rw [ha] at hsome
        cases hsome
      simp only [ih, hnot, false_or]
    | some d =>
      obtain ⟨rfl, hp⟩ := (h a d).mp ha
      simp only [hp, true_or, and_true, Option.some.injEq]
      exact eq_comm

end Single

namespace Path

def Homeless (home path : String) : Prop :=
  anchor path = "" ∧ ∃ first rest user, parts path = first :: rest ∧ first.toList = '~' :: user ∧
    homeOf? home (String.ofList user) = none

lemma expandHome_eq_error_iff {home path : String} {f : Fault} :
    expandHome home path = .error f ↔ f = .homeless ∧ Homeless home path := by
  rw [expandHome, Homeless]
  split
  · next first rest hanchor hparts =>
    have hstarts (p : List Char → Prop) :
        (anchor path = "" ∧ ∃ first rest user, parts path = first :: rest ∧
          first.toList = '~' :: user ∧ p user) ↔ ∃ user, first.toList = '~' :: user ∧ p user := by
      simp [hanchor, hparts]
    rw [hstarts]
    split
    · next user hfirst =>
      have huser (p : List Char → Prop) :
          (∃ user', first.toList = '~' :: user' ∧ p user') ↔ p user := by
        simp [hfirst]
      rw [huser]
      cases homeOf? home (String.ofList user) with
      | some place => simp
      | none => simp [eq_comm]
    · next hother =>
      refine ⟨nofun, ?_⟩
      rintro ⟨-, user, hfirst, -⟩
      exact absurd hfirst (hother user)
  · next hother =>
    refine ⟨nofun, ?_⟩
    rintro ⟨-, hanchor, first, rest, -, hparts, -⟩
    exact (hother first rest hanchor hparts).elim

end Path

namespace LogOutput

def Stray (home : String) (o : Value) : Prop :=
  ∃ v, o.entry? "destination" = some v ∧ ∃ s, Checked.text v = .ok s ∧ Path.Homeless home s

lemma not_homeless_of_stream {home s : String} (h : s = "stderr" ∨ s = "stdout") :
    ¬ Path.Homeless home s := by
  intro hhomeless
  have herror := Path.expandHome_eq_error_iff.mpr ⟨rfl, hhomeless⟩
  obtain rfl | rfl := h <;> cases herror

lemma readDestination_eq_fault_iff {home : String} {v : Value} {f : Fault} :
    readDestination home v = .error (.fault f) ↔
      f = .homeless ∧ ∃ s, Checked.text v = .ok s ∧ Path.Homeless home s := by
  rw [readDestination, seq_eq_error_iff]
  have htext : (Checked.text v).mapError Refusal.misfit ≠ .error (.fault f) := by
    rw [ne_eq, mapError_eq_error_iff]
    rintro ⟨_, -, ⟨⟩⟩
  simp only [htext, false_or, mapError_eq_ok_iff, ← exists_and_left, and_left_comm (a := f = _)]
  refine exists_congr fun s => and_congr_right fun _ => ?_
  split
  · next hstream =>
    rw [Bool.or_eq_true, decide_eq_true_eq, decide_eq_true_eq] at hstream
    exact ⟨nofun, fun h => absurd h.2 (not_homeless_of_stream hstream)⟩
  · rw [seq_eq_error_iff, mapError_eq_error_iff]
    constructor
    · rintro (⟨e, he, heq⟩ | ⟨path, -, h⟩)
      · obtain rfl := Refusal.fault.inj heq
        exact Path.expandHome_eq_error_iff.mp he
      · split at h <;> cases h
    · intro h
      exact Or.inl ⟨f, Path.expandHome_eq_error_iff.mpr h, rfl⟩

lemma broken?_check_iff {home : String} {o : Value} {f : Fault} :
    (check home o).broken? = some f ↔ f = .homeless ∧ Stray home o := by
  have hcheck : (check home o).broken? = (o.entry? "destination").bind fun v =>
      (Checked.ofRefusal v (readDestination home v)).broken? := by
    cases o with
    | map entries =>
      simp [check, Checked.fields, ofEntries, Checked.broken?_seq, Checked.broken?_map,
        Checked.broken?_field, Checked.broken?_ofMisfit, Value.entry?]
    | _ => rfl
  rw [hcheck]
  exact bind_eq_single_iff fun _ _ => Checked.broken?_ofRefusal.trans readDestination_eq_fault_iff

end LogOutput

def LoggingSettings.Strays (home : String) (logging : Value) : Prop :=
  ∃ outputs, logging.entry? "outputs" = some outputs ∧ ∃ o ∈ outputs.members, LogOutput.Stray home o

lemma LoggingSettings.broken?_check_iff {home : String} {v : Value} {f : Fault} :
    (check home v).broken? = some f ↔ f = .homeless ∧ Strays home v := by
  have hcheck : (check home v).broken? = (v.entry? "outputs").bind fun w =>
      w.members.findSome? fun o => (LogOutput.check home o).broken? := by
    cases v with
    | map entries =>
      simp [check, Checked.fields, ofEntries, Checked.broken?_seq, Checked.broken?_map,
        Checked.broken?_field, Checked.broken?_ofMisfit, Checked.broken?_list, Value.entry?]
    | _ => rfl
  rw [hcheck]
  exact bind_eq_single_iff fun _ _ => findSome?_eq_single_iff fun _ _ => LogOutput.broken?_check_iff

lemma DatabaseSettings.broken?_check (v : Value) : (check v).broken? = none := by
  cases v with
  | map entries =>
    simp [check, Checked.fields, ofEntries, Checked.broken?_seq, Checked.broken?_map,
      Checked.broken?_field, Checked.broken?_ofMisfit]
  | _ => rfl

namespace Settings

def Strays (home : String) (layer : Layer) : Prop :=
  ∃ logging, Value.find? "logging" layer = some logging ∧ LoggingSettings.Strays home logging

lemma broken?_ofEntries_iff {home : String} {layer : Layer} {f : Fault} :
    (ofEntries home layer).broken? = some f ↔ f = .homeless ∧ Strays home layer := by
  have hentries : (ofEntries home layer).broken? = (Value.find? "logging" layer).bind fun v =>
      (LoggingSettings.check home v).broken? := by
    simp [ofEntries, Checked.broken?_seq, Checked.broken?_map, Checked.broken?_field,
      DatabaseSettings.broken?_check]
  rw [hentries]
  exact bind_eq_single_iff fun _ _ => LoggingSettings.broken?_check_iff

lemma ofLayer_eq_fault_iff {home : String} {layer : Layer} {f : Fault} :
    ofLayer home layer = .error (.fault f) ↔ f = .homeless ∧ Strays home layer := by
  rw [← broken?_ofEntries_iff, ofLayer]
  cases ofEntries home layer with
  | good s => cases extras layer <;> simp [Checked.broken?]
  | bad i others => simp [Checked.broken?]
  | broken g => simp [Checked.broken?]

lemma ofLayer_error {home : String} {layer : Layer} {e : Failure}
    (h : ofLayer home layer = .error e) :
    (∃ c, e = .config c) ∨ ∃ f, e = .fault f := by
  rw [ofLayer] at h
  cases hread : ofEntries home layer with
  | good s =>
    rw [hread] at h
    cases hextras : extras layer with
    | nil =>
      rw [hextras] at h
      cases h
    | cons i rest =>
      rw [hextras] at h
      exact Or.inl ⟨_, (Except.error.inj h).symm⟩
  | bad i others =>
    rw [hread] at h
    exact Or.inl ⟨_, (Except.error.inj h).symm⟩
  | broken f =>
    rw [hread] at h
    exact Or.inr ⟨_, (Except.error.inj h).symm⟩

end Settings

end Tablewright
