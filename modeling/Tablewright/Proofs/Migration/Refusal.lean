import Tablewright.Proofs.Migration.Reconcile
import Tablewright.Proofs.Schema.Cycle

namespace Tablewright

def Column.unaddable (c : Column) : Bool :=
  c.primaryKey || c.unique || (c.notNull && c.fallback.isNone)

def LiveSchema.lacks (live : LiveSchema) (p : Table × Column) : Bool :=
  (live.findTable? p.1.name).any fun existing => (existing.column? p.2.name).isNone

def columnsOf (tables : List Table) : List (Table × Column) :=
  tables.flatMap fun t => t.columns.map fun c => (t, c)

def refusal (p : Table × Column) : MigrationError :=
  if p.2.primaryKey then .unsupportedAddColumn p.1.name p.2.name "primary key column"
  else if p.2.unique then .unsupportedAddColumn p.1.name p.2.name "UNIQUE column"
  else .notNullWithoutDefault p.1.name p.2.name

lemma mem_columnsOf {tables : List Table} {p : Table × Column} :
    p ∈ columnsOf tables ↔ p.1 ∈ tables ∧ p.2 ∈ p.1.columns := by
  simp only [columnsOf, List.mem_flatMap, List.mem_map]
  constructor
  · rintro ⟨t, ht, c, hc, rfl⟩
    exact ⟨ht, hc⟩
  · exact fun ⟨ht, hc⟩ => ⟨p.1, ht, p.2, hc, rfl⟩

lemma checkAddable_eq (t : Table) (c : Column) :
    checkAddable t.name c = if c.unaddable then .error (refusal (t, c)) else .ok () := by
  rw [checkAddable, refusal, Column.unaddable]
  cases c.primaryKey <;> cases c.unique <;> cases c.notNull <;> cases c.fallback <;> rfl

lemma refusal_ne_foreignKeyCycle (p : Table × Column) (names : List String) :
    refusal p ≠ .foreignKeyCycle names := by
  rw [refusal]
  split
  · exact nofun
  · split <;> exact nofun

lemma checkAddable_eq_error_iff {t : Table} {c : Column} {e : MigrationError} :
    checkAddable t.name c = .error e ↔ c.unaddable ∧ e = refusal (t, c) := by
  rw [checkAddable_eq]
  cases c.unaddable with
  | true => exact ⟨fun h => ⟨rfl, (Except.error.inj h).symm⟩, fun h => congrArg _ h.2.symm⟩
  | false => exact ⟨nofun, nofun⟩

lemma addMissing_eq_error_iff {t existing : Table} {columns : List Column} {e : MigrationError} :
    addMissing t.name existing columns = .error e ↔
      ∃ c, columns.find? (fun c => (existing.column? c.name).isNone && c.unaddable) = some c ∧
        e = refusal (t, c) := by
  induction columns with
  | nil => simp [addMissing]
  | cons c rest ih =>
    rw [addMissing, List.find?_cons]
    cases existing.column? c.name with
    | some d => exact ih
    | none =>
      rw [Option.isSome_none, if_neg Bool.false_ne_true, bind_eq_error_iff,
        checkAddable_eq_error_iff]
      simp only [map_eq_error_iff, ih, checkAddable_eq]
      cases c.unaddable <;> simp

lemma exists_addMissing {t existing : Table} {columns : List Column}
    (h : columns.find? (fun c => (existing.column? c.name).isNone && c.unaddable) = none) :
    ∃ here, addMissing t.name existing columns = .ok here := by
  cases hm : addMissing t.name existing columns with
  | ok here => exact ⟨here, rfl⟩
  | error e =>
    obtain ⟨c, hsome, -⟩ := addMissing_eq_error_iff.mp hm
    rw [h] at hsome
    cases hsome

lemma addToExisting_eq_error_iff {live : LiveSchema} {tables : List Table} {e : MigrationError} :
    addToExisting live tables = .error e ↔
      ∃ p, (columnsOf tables).find? (fun p => live.lacks p && p.2.unaddable) = some p ∧
        e = refusal p := by
  induction tables with
  | nil => simp [addToExisting, columnsOf]
  | cons t rest ih =>
    rw [addToExisting, columnsOf, List.flatMap_cons, List.find?_append, List.find?_map, ← columnsOf]
    cases hf : live.findTable? t.name with
    | none =>
      have hnone : t.columns.find? ((fun p => live.lacks p && p.2.unaddable) ∘ fun c => (t, c)) =
          none := by simp [LiveSchema.lacks, hf]
      rw [hnone, Option.map_none, Option.none_or]
      exact ih
    | some existing =>
      have hfirst : (fun p => live.lacks p && p.2.unaddable) ∘ (fun c => (t, c)) =
          fun c => (existing.column? c.name).isNone && c.unaddable := by
        simp only [LiveSchema.lacks, hf, Function.comp_def, Option.any_some]
      rw [hfirst]
      cases hc : t.columns.find? fun c => (existing.column? c.name).isNone && c.unaddable with
      | some c =>
        have hrefused : addMissing t.name existing t.columns = .error (refusal (t, c)) :=
          addMissing_eq_error_iff.mpr ⟨c, hc, rfl⟩
        simp [hrefused, Except.bind, eq_comm]
      | none =>
        obtain ⟨here, hadded⟩ := exists_addMissing (t := t) hc
        simp only [hadded, Except.bind, map_eq_error_iff, ih, Option.map_none, Option.none_or]

section

variable {declared : Schema} {live : LiveSchema}

lemma reconcile_eq_error_iff {e : MigrationError} :
    reconcile declared live = .error e ↔
      (orderByReferences (missingTables declared live)).leftOver ≠ [] ∧
          e = .foreignKeyCycle (orderByReferences (missingTables declared live)).leftOver ∨
        (orderByReferences (missingTables declared live)).leftOver = [] ∧
          addToExisting live declared.tables.values = .error e := by
  rw [reconcile]
  cases (orderByReferences (missingTables declared live)).leftOver with
  | nil => simp [map_eq_error_iff]
  | cons name rest => simp [eq_comm]

lemma leftOver_missingTables {tables : List Table} {indexes : List Index}
    (hc : Schema.Consistent tables indexes) :
    (orderByReferences (missingTables (.ofDescriptions tables indexes) live)).leftOver = [] := by
  rw [leftOver_eq_nil_iff (missingTables_distinct hc)]
  intro c hcycle
  refine (leftOver_eq_nil_iff hc.names).mp hc.order c (hcycle.mono fun t ht => ?_)
  exact ((mem_missingTables hc).mp ht).1

lemma reconcile_eq_error_iff_of_build {tables : List Table} {indexes : List Index}
    (hb : Schema.build tables indexes = .ok declared) {e : MigrationError} :
    reconcile declared live = .error e ↔
      ∃ p, (columnsOf tables).find? (fun p => live.lacks p && p.2.unaddable) = some p ∧
        e = refusal p := by
  obtain ⟨hc, rfl⟩ := Schema.build_eq_ok_iff.mp hb
  rw [reconcile_eq_error_iff, leftOver_missingTables hc, hc.values_tables,
    addToExisting_eq_error_iff]
  simp

lemma exists_error_iff_of_build {tables : List Table} {indexes : List Index}
    (hb : Schema.build tables indexes = .ok declared) :
    (∃ e, reconcile declared live = .error e) ↔
      ∃ t ∈ tables, ∃ c ∈ t.columns, live.lacks (t, c) = true ∧ c.unaddable = true := by
  constructor
  · rintro ⟨e, he⟩
    obtain ⟨p, hp, -⟩ := (reconcile_eq_error_iff_of_build hb).mp he
    obtain ⟨ht, hc⟩ := mem_columnsOf.mp (List.mem_of_find?_eq_some hp)
    exact ⟨p.1, ht, p.2, hc, by simpa using List.find?_some hp⟩
  · rintro ⟨t, ht, c, hc, hrefused⟩
    have hfound : ((columnsOf tables).find? fun p => live.lacks p && p.2.unaddable).isSome :=
      List.find?_isSome.mpr ⟨(t, c), mem_columnsOf.mpr ⟨ht, hc⟩, by simpa using hrefused⟩
    obtain ⟨p, hp⟩ := Option.isSome_iff_exists.mp hfound
    exact ⟨refusal p, (reconcile_eq_error_iff_of_build hb).mpr ⟨p, hp, rfl⟩⟩

lemma reconcile_cycle_iff {tables : List Table} (hn : DistinctNames tables)
    (hd : declared.tables.values = tables) :
    (∃ names, reconcile declared live = .error (.foreignKeyCycle names)) ↔
      ∃ c, ReferenceCycle (tables.filter fun t => (live.findTable? t.name).isNone) c := by
  have hmissing : DistinctNames (tables.filter fun t => (live.findTable? t.name).isNone) :=
    hn.sublist (List.filter_sublist.map _)
  have hcycle := not_congr (leftOver_eq_nil_iff hmissing)
  rw [not_forall_not] at hcycle
  simp only [reconcile_eq_error_iff, addToExisting_eq_error_iff, missingTables, hd, ← hcycle]
  constructor
  · rintro ⟨names, ⟨hl, -⟩ | ⟨-, p, -, hp⟩⟩
    · exact hl
    · exact absurd hp.symm (refusal_ne_foreignKeyCycle p names)
  · exact fun hl => ⟨_, Or.inl ⟨hl, rfl⟩⟩

end

/-- A plan is refused for the first declared column that a live table lacks and that cannot be
added, and for nothing else; only of tables that were never checked can the missing ones have
references that go round, and then the plan is refused for these. -/
theorem reconcile_fails_iff (live : LiveSchema) :
    (∀ tables indexes declared, Schema.build tables indexes = .ok declared →
      ((∃ e, reconcile declared live = .error e) ↔
        ∃ t ∈ tables, ∃ c ∈ t.columns, live.lacks (t, c) = true ∧ c.unaddable = true) ∧
      (∀ e, reconcile declared live = .error e ↔
        ∃ p, (columnsOf tables).find? (fun p => live.lacks p && p.2.unaddable) = some p ∧
          e = refusal p) ∧
      ∀ names, reconcile declared live ≠ .error (.foreignKeyCycle names)) ∧
    ∀ (tables : List Table) (indexes : Keyed Index), DistinctNames tables →
      ((∃ names, reconcile ⟨tables.map fun t => (t.name, t), indexes⟩ live =
          .error (.foreignKeyCycle names)) ↔
        ∃ c, ReferenceCycle (tables.filter fun t => (live.findTable? t.name).isNone) c) := by
  refine ⟨fun tables indexes declared hb => ?_, fun tables indexes hn => ?_⟩
  · refine ⟨exists_error_iff_of_build hb, fun e => reconcile_eq_error_iff_of_build hb, ?_⟩
    intro names h
    obtain ⟨p, -, hp⟩ := (reconcile_eq_error_iff_of_build hb).mp h
    exact refusal_ne_foreignKeyCycle p names hp.symm
  · exact reconcile_cycle_iff hn (by simp [Keyed.values, Function.comp_def])

namespace Bookshelf

def keyed : Column := { name := "id", kind := .integer, primaryKey := true }

def book : Table :=
  ⟨"Book", [keyed, { name := "title", kind := .text },
    { name := "isbn", kind := .text, unique := true },
    { name := "pages", kind := .integer, notNull := true }]⟩

def loan : Table :=
  ⟨"loan", [keyed, { name := "by", kind := .integer, references := some ⟨"Reader", "id"⟩ }]⟩

def reader : Table :=
  ⟨"reader", [keyed, { name := "last", kind := .integer, references := some ⟨"LOAN", "id"⟩ }]⟩

def live : LiveSchema := .ofDescriptions [⟨"book", [keyed]⟩] []

end Bookshelf

open Bookshelf in
theorem reconcile_fails_iff_books :
    Schema.build [book] = .ok (.ofDescriptions [book] []) ∧
      reconcile (.ofDescriptions [book] []) Bookshelf.live =
        .error (.unsupportedAddColumn "Book" "isbn" "UNIQUE column") ∧
      DistinctNames [loan, reader] ∧
      ∃ names, reconcile ⟨[("loan", loan), ("reader", reader)], []⟩ Bookshelf.live =
        .error (.foreignKeyCycle names) := by
  have hb : Schema.build [book] = .ok (.ofDescriptions [book] []) := by rfl
  have hn : DistinctNames [loan, reader] := by
    rw [DistinctNames]
    decide
  have hlent : loan.RefersTo reader := ⟨by decide, "Reader", by decide, by rfl⟩
  have hread : reader.RefersTo loan := ⟨by decide, "LOAN", by decide, by rfl⟩
  have hcycle : ReferenceCycle [loan, reader] ([loan, reader] : List Table) :=
    { among := fun t ht => ht
      distinct := by decide
      several := by decide
      refers := by simp [hlent, hread] }
  refine ⟨hb, ?_, hn, ?_⟩
  · exact (((reconcile_fails_iff Bookshelf.live).1 _ _ _ hb).2.1 _).mpr ⟨_, by rfl, by rfl⟩
  · exact ((reconcile_fails_iff Bookshelf.live).2 _ [] hn).mpr ⟨_, hcycle⟩

end Tablewright
