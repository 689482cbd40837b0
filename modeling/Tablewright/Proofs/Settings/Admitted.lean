import Mathlib.Data.List.Forall2
import Tablewright.Proofs.Outcome
import Tablewright.Proofs.Settings.Reading
import Tablewright.Settings.Load

namespace Tablewright

inductive Domain where
  | text
  | truth
  | whole
  | count
  | real
  | word (words : List String)
  | wordOrNone (words : List String)
  | destination

namespace Domain

def Has : Domain → Value → Prop
  | text, v => ∃ s, v = .text s
  | truth, v => ∃ b, v = .bool b
  | whole, v => ∃ n, v = .int n
  | count, v => ∃ n, v = .int n ∧ 0 ≤ n
  | real, v => ∃ x, v = .real x
  | word words, v => ∃ w ∈ words, v = .text w
  | wordOrNone words, v => v = .null ∨ ∃ w ∈ words, v = .text w
  | destination, v => ∃ s, v = .text s ∧ (s = "stderr" ∨ s = "stdout" ∨ Path.isAbsolute s = true)

def HasAll (declared : List (String × Domain)) (entries : List (String × Value)) : Prop :=
  List.Forall₂ (fun d e => e.1 = d.1 ∧ d.2.Has e.2) declared entries

end Domain

def LogLevel.words : List String := ["DEBUG", "INFO", "WARNING", "ERROR", "CRITICAL"]

lemma LogLevel.word_mem (l : LogLevel) : Choice.word l ∈ words := by cases l <;> decide

namespace DatabaseSettings

def declared : List (String × Domain) :=
  [("path", .text),
   ("journal_mode", .word ["DELETE", "TRUNCATE", "PERSIST", "MEMORY", "WAL", "OFF"]),
   ("synchronous", .word ["OFF", "NORMAL", "FULL", "EXTRA"]),
   ("foreign_keys", .truth), ("busy_timeout_ms", .whole), ("cache_size_kb", .whole),
   ("read_only", .truth), ("create_if_missing", .truth), ("read_pool_size", .count),
   ("max_retries", .count), ("retry_base_delay_sec", .real), ("retry_max_delay_sec", .real)]

lemma hasAll_entries (s : DatabaseSettings) : Domain.HasAll declared s.entries := by
  have hjournal : Choice.word s.journalMode ∈
      ["DELETE", "TRUNCATE", "PERSIST", "MEMORY", "WAL", "OFF"] := by
    cases s.journalMode <;> decide
  have hsynchronous : Choice.word s.synchronous ∈ ["OFF", "NORMAL", "FULL", "EXTRA"] := by
    cases s.synchronous <;> decide
  simpa [Domain.HasAll, declared, entries, fieldNames, Domain.Has] using
    And.intro hjournal hsynchronous

end DatabaseSettings

namespace LogOutput

def declared : List (String × Domain) :=
  [("format", .word ["json", "console"]), ("destination", .destination),
   ("level", .wordOrNone LogLevel.words)]

lemma hasAll_entries {o : LogOutput} (h : Domain.destination.Has (.text o.destination)) :
    Domain.HasAll declared o.entries := by
  have hformat : Choice.word o.format ∈ ["json", "console"] := by cases o.format <;> decide
  have hlevel : (Domain.wordOrNone LogLevel.words).Has
      ((o.level.map fun l => Value.text (Choice.word l)).getD .null) := by
    cases o.level with
    | none => exact Or.inl rfl
    | some l => exact Or.inr ⟨_, l.word_mem, rfl⟩
  exact .cons ⟨rfl, _, hformat, rfl⟩ <| .cons ⟨rfl, h⟩ <| .cons ⟨rfl, hlevel⟩ .nil

lemma hasAll_default : Domain.HasAll declared ({} : LogOutput).entries :=
  hasAll_entries ⟨_, rfl, Or.inl rfl⟩

lemma readDestination_eq_ok {home s : String} {v : Value} (h : readDestination home v = .ok s) :
    Domain.destination.Has (.text s) := by
  obtain ⟨given, -, h⟩ := seq_eq_ok_iff.mp h
  split at h
  · next hstream =>
    obtain rfl := pure_eq_ok_iff.mp h
    rw [Bool.or_eq_true, decide_eq_true_eq, decide_eq_true_eq] at hstream
    exact ⟨given, rfl, hstream.imp_right Or.inl⟩
  · obtain ⟨path, -, h⟩ := seq_eq_ok_iff.mp h
    split at h
    · next habsolute =>
      obtain rfl := pure_eq_ok_iff.mp h
      exact ⟨path, rfl, Or.inr (Or.inr habsolute)⟩
    · cases h

end LogOutput

namespace Checked

variable {α : Type} {read : Value → Checked α}

lemma good?_under (name : String) (x : Checked α) : (x.under name).good? = x.good? := by
  cases x <;> rfl

lemma exists_of_mem_each {items : List Value} {start : Nat} {as : List α} {a : α}
    (h : (each read start items).good? = some as) (ha : a ∈ as) :
    ∃ v ∈ items, (read v).good? = some a := by
  induction items generalizing start as with
  | nil =>
    obtain rfl := Option.some.inj h
    cases ha
  | cons v rest ih =>
    obtain ⟨_, others, hcons, hothers, rfl⟩ := good?_seq_eq_some h
    obtain ⟨first, hfirst, rfl⟩ := good?_map_eq_some hcons
    rw [good?_under] at hfirst
    obtain rfl | ha := List.mem_cons.mp ha
    · exact ⟨v, List.mem_cons_self, hfirst⟩
    · obtain ⟨w, hw, hread⟩ := ih hothers ha
      exact ⟨w, List.mem_cons_of_mem v hw, hread⟩

lemma exists_of_mem_list {v : Value} {as : List α} {a : α} (h : (list read v).good? = some as)
    (ha : a ∈ as) : ∃ w, (read w).good? = some a := by
  cases v with
  | list items | tuple items | set items =>
    obtain ⟨w, -, hw⟩ := exists_of_mem_each h ha
    exact ⟨w, hw⟩
  | _ => cases h

lemma exists_of_fields {name : String} {read : List (Value × Value) → Checked α} {v : Value} {a : α}
    (h : (fields name read v).good? = some a) : ∃ entries, (read entries).good? = some a := by
  cases v with
  | map entries => exact ⟨_, h⟩
  | _ => cases h

lemma of_good?_field {entries : List (Value × Value)} {name : String} {fallback a : α}
    {p : α → Prop} (h : (field entries name fallback read).good? = some a) (hfallback : p fallback)
    (hread : ∀ v, (read v).good? = some a → p a) : p a := by
  rw [good?_field] at h
  cases hfind : Value.find? name entries with
  | none =>
    rw [hfind] at h
    exact Option.some.inj h ▸ hfallback
  | some v =>
    rw [hfind] at h
    exact hread v h

lemma good?_ofRefusal {input : Value} {r : Except Refusal α} {a : α}
    (h : (ofRefusal input r).good? = some a) : r = .ok a := by
  cases r with
  | ok b => exact congrArg _ (Option.some.inj h)
  | error e => cases e <;> cases h

end Checked

lemma LogOutput.hasAll_of_check {home : String} {v : Value} {o : LogOutput}
    (h : (check home v).good? = some o) : Domain.HasAll declared o.entries := by
  refine hasAll_entries ?_
  obtain ⟨entries, h⟩ := Checked.exists_of_fields h
  obtain ⟨_, level, hplaced, -, rfl⟩ := Checked.good?_seq_eq_some h
  obtain ⟨_, destination, hformat, hdestination, rfl⟩ := Checked.good?_seq_eq_some hplaced
  obtain ⟨format, -, rfl⟩ := Checked.good?_map_eq_some hformat
  exact Checked.of_good?_field (p := fun d => Domain.destination.Has (.text d)) hdestination
    ⟨_, rfl, Or.inl rfl⟩ fun w hw => readDestination_eq_ok (Checked.good?_ofRefusal hw)

structure Settings.Admitted (s : Settings) : Prop where
  database : Domain.HasAll DatabaseSettings.declared s.database.entries
  level : (Domain.word LogLevel.words).Has (.text (Choice.word s.logging.level))
  outputs : ∀ o ∈ s.logging.outputs, Domain.HasAll LogOutput.declared o.entries

lemma LoggingSettings.hasAll_of_check {home : String} {v : Value} {s : LoggingSettings}
    (h : (check home v).good? = some s) :
    ∀ o ∈ s.outputs, Domain.HasAll LogOutput.declared o.entries := by
  obtain ⟨entries, h⟩ := Checked.exists_of_fields h
  obtain ⟨_, outputs, hlevel, houtputs, rfl⟩ := Checked.good?_seq_eq_some h
  obtain ⟨level, -, rfl⟩ := Checked.good?_map_eq_some hlevel
  refine Checked.of_good?_field
    (p := fun os : List LogOutput => ∀ o ∈ os, Domain.HasAll LogOutput.declared o.entries) houtputs
    (List.forall_mem_singleton.mpr LogOutput.hasAll_default) fun v hv o ho => ?_
  obtain ⟨w, hw⟩ := Checked.exists_of_mem_list hv ho
  exact LogOutput.hasAll_of_check hw

namespace Settings

lemma ofEntries_of_ofLayer {home : String} {layer : Layer} {s : Settings}
    (h : ofLayer home layer = .ok s) : ofEntries home layer = .good s := by
  rw [ofLayer] at h
  cases hread : ofEntries home layer with
  | good t =>
    rw [hread] at h
    cases hextras : extras layer with
    | nil =>
      rw [hextras] at h
      exact congrArg _ (Except.ok.inj h)
    | cons i rest =>
      rw [hextras] at h
      cases h
  | bad i others | broken f =>
    rw [hread] at h
    cases h

lemma admitted_of_ofLayer {home : String} {layer : Layer} {s : Settings}
    (h : ofLayer home layer = .ok s) : s.Admitted := by
  have hgood : (ofEntries home layer).good? = some s := congrArg _ (ofEntries_of_ofLayer h)
  obtain ⟨_, database, hpair, -, rfl⟩ := Checked.good?_seq_eq_some hgood
  obtain ⟨logging, hlogging, rfl⟩ := Checked.good?_map_eq_some hpair
  refine ⟨database.hasAll_entries, ⟨_, logging.level.word_mem, rfl⟩, ?_⟩
  exact Checked.of_good?_field
    (p := fun l : LoggingSettings => ∀ o ∈ l.outputs, Domain.HasAll LogOutput.declared o.entries)
    hlogging (List.forall_mem_singleton.mpr LogOutput.hasAll_default)
    fun _ => LoggingSettings.hasAll_of_check

end Settings

end Tablewright
