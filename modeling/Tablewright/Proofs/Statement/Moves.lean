import Tablewright.Proofs.Outcome
import Tablewright.Statement.Compiled

namespace Tablewright

lemma Term.eq_table_of_asTable {t : Term} {u : Table} (h : t.asTable = .ok u) : t = table u := by
  cases t with
  | table t => exact congrArg table (Except.ok.inj h)
  | _ => cases h

lemma Term.asPredicate_eq_ok_iff {t : Term} {p : Predicate} :
    t.asPredicate = .ok p ↔ t = predicate p ∧ ∀ v, p ≠ .stray v := by
  constructor
  · intro h
    cases t with
    | predicate q =>
      cases q with
      | comparison c | group k items => exact Except.ok.inj h ▸ ⟨rfl, nofun⟩
      | stray v => cases h
    | _ => cases h
  · rintro ⟨rfl, hp⟩
    cases p with
    | comparison c | group k items => rfl
    | stray v => exact absurd rfl (hp v)

lemma Select.innerJoin_eq_ok_iff {s s' : Select} {t : Table} {on : Term} :
    s.innerJoin t on = .ok s' ↔ t.name ∉ s.tableNames ∧
      ∃ p, on.asPredicate = .ok p ∧ s' = { s with joins := s.joins ++ [⟨t, p⟩] } := by
  rw [Select.innerJoin]
  by_cases hnew : t.name ∈ s.tableNames
  · rw [if_pos (List.contains_iff_mem.mpr hnew)]
    exact ⟨nofun, fun h => absurd hnew h.1⟩
  · rw [if_neg (mt List.contains_iff_mem.mp hnew), bind_eq_ok_iff]
    simp only [hnew, not_false_iff, true_and, Except.ok.injEq, eq_comm]

namespace Statement

def filter : Statement → Option Predicate
  | select s => s.filter
  | update s => s.filter
  | delete s => s.filter
  | _ => none

def filtered (p : Predicate) : Statement → Statement
  | select s => select { s with filter := some p }
  | update s => update { s with filter := some p }
  | delete s => delete { s with filter := some p }
  | s => s

/-- Whether a condition with the given columns may be added; a selection looks at them later. -/
def admits (s : Statement) (columns : List (Except Fault TableColumn)) : Except Failure Unit :=
  match s with
  | select _ => .ok ()
  | update s => checkScope [s.table.name] columns
  | delete s => checkScope [s.table.name] columns
  | s => .error (.fault (.lacks s.kind "where"))

lemma step_restrict {s : Statement} {p : Predicate} (hp : ∀ v, p ≠ .stray v) :
    s.step (.restrict (.predicate p)) =
      (s.admits p.columns).bind fun _ =>
        ((Predicate.restrict s.filter p).mapError .build).map fun q => s.filtered q := by
  have hterm : (Term.predicate p).asPredicate = .ok p :=
    Term.asPredicate_eq_ok_iff.mpr ⟨rfl, hp⟩
  cases s with
  | select s =>
    rw [step, hterm]
    change ((s.restrict p).bind _).mapError _ = _
    rw [Select.restrict]
    change _ = ((Predicate.restrict s.filter p).mapError _).map _
    cases Predicate.restrict s.filter p <;> rfl
  | update s =>
    rw [step, hterm]
    change ((s.restrict p).bind _) = _
    rw [Update.restrict]
    change _ = (checkScope [s.table.name] p.columns).bind fun _ =>
      ((Predicate.restrict s.filter p).mapError _).map _
    cases checkScope [s.table.name] p.columns <;> cases Predicate.restrict s.filter p <;> rfl
  | delete s =>
    rw [step, hterm]
    change ((s.restrict p).bind _) = _
    rw [Delete.restrict]
    change _ = (checkScope [s.table.name] p.columns).bind fun _ =>
      ((Predicate.restrict s.filter p).mapError _).map _
    cases checkScope [s.table.name] p.columns <;> cases Predicate.restrict s.filter p <;> rfl
  | insert s | ddl d => rfl

lemma asPredicate_of_step_restrict {s s' : Statement} {t : Term}
    (h : s.step (.restrict t) = .ok s') : ∃ p, t.asPredicate = .ok p := by
  cases s with
  | select s =>
    obtain ⟨p, hp, -⟩ := seq_eq_ok_iff.mp (mapError_eq_ok_iff.mp h)
    exact ⟨p, hp⟩
  | update s | delete s =>
    obtain ⟨p, hp, -⟩ := seq_eq_ok_iff.mp h
    exact ⟨p, mapError_eq_ok_iff.mp hp⟩
  | insert s | ddl d => cases h

inductive Moves : Statement → Step → Statement → Prop
  | source (s : Select) (t : Table) :
      Moves (select s) (.source (.table t)) (select (s.selectFrom t))
  | innerJoin {s : Select} {t : Table} {on : Term} {p : Predicate} : t.name ∉ s.tableNames →
      on.asPredicate = .ok p →
      Moves (select s) (.innerJoin (.table t) on) (select { s with joins := s.joins ++ [⟨t, p⟩] })
  | restrict {s : Statement} {t : Term} {p q : Predicate} : t.asPredicate = .ok p →
      s.admits p.columns = .ok () → Predicate.restrict s.filter p = .ok q →
      Moves s (.restrict t) (s.filtered q)
  | sortBy (s : Select) (c : TableColumn) (descending : Bool) :
      Moves (select s) (.sortBy (.column c) descending)
        (select { s with sorting := s.sorting ++ [⟨c, descending⟩] })
  | limit (s : Select) (n : Nat) :
      Moves (select s) (.limit (.value (.int n))) (select { s with limit := some n })
  | values {s : Insert} {v : Term} {assigned : List Assignment} :
      v.assignments s.table false = .ok assigned →
      Moves (insert s) (.values v) (insert { s with assignments := assigned })
  | assign {s : Update} {v : Term} {assigned : List Assignment} :
      v.assignments s.table true = .ok assigned →
      Moves (update s) (.assign v) (update { s with assignments := assigned })
  | returning {s : Statement} : s.isWrite = true → s.isDdl = false → Moves s .returning s.askRows

lemma Moves.step_eq_ok {s s' : Statement} {c : Step} (h : s.Moves c s') : s.step c = .ok s' := by
  cases h with
  | source s t | sortBy s column descending | limit s n => rfl
  | innerJoin hnew hon =>
    exact mapError_eq_ok_iff.mpr (seq_eq_ok_iff.mpr ⟨_, rfl,
      seq_eq_ok_iff.mpr ⟨_, Select.innerJoin_eq_ok_iff.mpr ⟨hnew, _, hon, rfl⟩, rfl⟩⟩)
  | restrict hp hadmits hq =>
    obtain ⟨rfl, hstray⟩ := Term.asPredicate_eq_ok_iff.mp hp
    rw [step_restrict hstray, hadmits, hq]
    rfl
  | values hassigned | assign hassigned =>
    exact seq_eq_ok_iff.mpr ⟨_, seq_eq_ok_iff.mpr ⟨_, hassigned, rfl⟩, rfl⟩
  | returning hwrite hddl =>
    cases s with
    | insert s | update s | delete s => rfl
    | select s => cases hwrite
    | ddl d => cases hddl

lemma moves_of_restrict {s s' : Statement} {t : Term} (h : s.step (.restrict t) = .ok s') :
    s.Moves (.restrict t) s' := by
  obtain ⟨p, hp⟩ := asPredicate_of_step_restrict h
  obtain ⟨rfl, hstray⟩ := Term.asPredicate_eq_ok_iff.mp hp
  rw [step_restrict hstray] at h
  obtain ⟨_, hadmits, h⟩ := bind_eq_ok_iff.mp h
  obtain ⟨q, hq, rfl⟩ := map_eq_ok_iff.mp h
  exact .restrict hp hadmits (mapError_eq_ok_iff.mp hq)

lemma moves_of_source {s s' : Statement} {t : Term} (h : s.step (.source t) = .ok s') :
    s.Moves (.source t) s' := by
  cases s with
  | select s =>
    obtain ⟨table, ht, h⟩ := seq_eq_ok_iff.mp (mapError_eq_ok_iff.mp h)
    obtain rfl := Term.eq_table_of_asTable ht
    exact pure_eq_ok_iff.mp h ▸ .source s table
  | _ => cases h

lemma moves_of_innerJoin {s s' : Statement} {t on : Term}
    (h : s.step (.innerJoin t on) = .ok s') : s.Moves (.innerJoin t on) s' := by
  cases s with
  | select s =>
    obtain ⟨table, ht, h⟩ := seq_eq_ok_iff.mp (mapError_eq_ok_iff.mp h)
    obtain ⟨joined, hjoined, h⟩ := seq_eq_ok_iff.mp h
    obtain rfl := Term.eq_table_of_asTable ht
    obtain ⟨hnew, p, hp, rfl⟩ := Select.innerJoin_eq_ok_iff.mp hjoined
    exact pure_eq_ok_iff.mp h ▸ .innerJoin hnew hp
  | _ => cases h

lemma moves_of_sortBy {s s' : Statement} {t : Term} {descending : Bool}
    (h : s.step (.sortBy t descending) = .ok s') : s.Moves (.sortBy t descending) s' := by
  cases s with
  | select s =>
    cases t with
    | column c => exact Except.ok.inj h ▸ .sortBy s c descending
    | _ => cases h
  | _ => cases h

lemma moves_of_limit {s s' : Statement} {t : Term} (h : s.step (.limit t) = .ok s') :
    s.Moves (.limit t) s' := by
  cases s with
  | select s =>
    obtain ⟨limited, hlimited, h⟩ := seq_eq_ok_iff.mp (mapError_eq_ok_iff.mp h)
    unfold Select.limitTo at hlimited
    split at hlimited
    · next n =>
      obtain rfl := Except.ok.inj hlimited
      exact pure_eq_ok_iff.mp h ▸ .limit s n
    · cases hlimited
  | _ => cases h

lemma moves_of_values {s s' : Statement} {v : Term} (h : s.step (.values v) = .ok s') :
    s.Moves (.values v) s' := by
  cases s with
  | insert s =>
    obtain ⟨given, hgiven, h⟩ := seq_eq_ok_iff.mp h
    obtain ⟨assigned, hassigned, hs⟩ := seq_eq_ok_iff.mp hgiven
    obtain rfl := pure_eq_ok_iff.mp hs
    exact pure_eq_ok_iff.mp h ▸ .values hassigned
  | _ => cases h

lemma moves_of_assign {s s' : Statement} {v : Term} (h : s.step (.assign v) = .ok s') :
    s.Moves (.assign v) s' := by
  cases s with
  | update s =>
    obtain ⟨given, hgiven, h⟩ := seq_eq_ok_iff.mp h
    obtain ⟨assigned, hassigned, hs⟩ := seq_eq_ok_iff.mp hgiven
    obtain rfl := pure_eq_ok_iff.mp hs
    exact pure_eq_ok_iff.mp h ▸ .assign hassigned
  | _ => cases h

lemma moves_of_returning {s s' : Statement} (h : s.step .returning = .ok s') :
    s.Moves .returning s' := by
  cases s with
  | insert s | update s | delete s => exact Except.ok.inj h ▸ .returning rfl rfl
  | select s | ddl d => cases h

lemma moves_of_step {s s' : Statement} {c : Step} (h : s.step c = .ok s') : s.Moves c s' := by
  cases c with
  | source t => exact moves_of_source h
  | innerJoin t on => exact moves_of_innerJoin h
  | restrict t => exact moves_of_restrict h
  | sortBy t descending => exact moves_of_sortBy h
  | limit t => exact moves_of_limit h
  | values v => exact moves_of_values h
  | assign v => exact moves_of_assign h
  | returning => exact moves_of_returning h

def takes (s : Statement) : List Step → Except Failure Statement
  | [] => .ok s
  | c :: rest => (s.step c).bind (takes · rest)

lemma takes_cons_eq_ok {s s' : Statement} {c : Step} {rest : List Step} :
    s.takes (c :: rest) = .ok s' ↔ ∃ t, s.step c = .ok t ∧ t.takes rest = .ok s' :=
  bind_eq_ok_iff

lemma takes_append_eq_ok {s s' : Statement} {before after : List Step} :
    s.takes (before ++ after) = .ok s' ↔ ∃ t, s.takes before = .ok t ∧ t.takes after = .ok s' := by
  induction before generalizing s with
  | nil => exact ⟨fun h => ⟨s, rfl, h⟩, fun ⟨t, ht, h⟩ => Except.ok.inj ht ▸ h⟩
  | cons c before ih =>
    rw [List.cons_append, takes_cons_eq_ok]
    constructor
    · rintro ⟨u, hu, h⟩
      obtain ⟨t, ht, h⟩ := ih.mp h
      exact ⟨t, takes_cons_eq_ok.mpr ⟨u, hu, ht⟩, h⟩
    · rintro ⟨t, ht, h⟩
      obtain ⟨u, hu, ht⟩ := takes_cons_eq_ok.mp ht
      exact ⟨u, hu, ih.mpr ⟨t, ht, h⟩⟩

lemma takes_induction {P : Statement → Prop} {steps : List Step}
    (hstep : ∀ {s s' : Statement}, ∀ c ∈ steps, P s → s.Moves c s' → P s') {s s' : Statement}
    (hs : P s) (h : s.takes steps = .ok s') : P s' := by
  induction steps generalizing s with
  | nil => exact Except.ok.inj h ▸ hs
  | cons c steps ih =>
    obtain ⟨t, ht, h⟩ := takes_cons_eq_ok.mp h
    have ht := hstep c List.mem_cons_self hs (moves_of_step ht)
    exact ih (fun d hd => hstep d (List.mem_cons_of_mem c hd)) ht h

end Statement

end Tablewright
