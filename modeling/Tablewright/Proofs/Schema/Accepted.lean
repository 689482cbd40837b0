import Tablewright.Proofs.Schema.Cycle
import Tablewright.Proofs.Schema.Declared

namespace Tablewright.Schema

def HasColumn (tables : List Table) (table column : String) : Prop :=
  ∃ t ∈ tables, Text.fold t.name = Text.fold table ∧
    ∃ c ∈ t.columns, Text.fold c.name = Text.fold column

/-- Tables and indexes that fit together. All names are compared without regard to letter case. -/
structure WellFormed (tables : List Table) (indexes : List Index) : Prop where
  tableNames : (tables.map fun t => Text.fold t.name).Nodup
  columnNames : ∀ t ∈ tables, (t.columns.map fun c => Text.fold c.name).Nodup
  key : ∀ t ∈ tables, t.columns.countP (·.primaryKey) = 1
  references : ∀ t ∈ tables, ∀ c ∈ t.columns, ∀ r, c.references = some r →
    HasColumn tables r.table r.column
  indexNames : (indexes.map fun i => Text.fold i.name).Nodup
  indexColumns : ∀ i ∈ indexes, i.columns ≠ [] ∧ ∃ t ∈ tables,
    Text.fold t.name = Text.fold i.table ∧
      ∀ name ∈ i.columns, ∃ c ∈ t.columns, Text.fold c.name = Text.fold name
  acyclic : ∀ c, ¬ ReferenceCycle tables c

section

variable {tables : List Table}

lemma findFolded?_eq_some_iff (h : DistinctNames tables) {name : String} {t : Table} :
    findFolded? tables name = some t ↔ t ∈ tables ∧ Text.fold t.name = Text.fold name := by
  refine ⟨findFolded?_eq_some, fun ⟨ht, hname⟩ => ?_⟩
  rw [findFolded?, ← hname]
  exact h.find? ht

lemma exists_findFolded?_iff (h : DistinctNames tables) {name : String} {p : Table → Prop} :
    (∃ t, findFolded? tables name = some t ∧ p t) ↔
      ∃ t ∈ tables, Text.fold t.name = Text.fold name ∧ p t := by
  simp only [findFolded?_eq_some_iff h, and_assoc]

lemma table_sound_iff (h : DistinctNames tables) {t : Table} :
    t.Sound tables ↔ (t.columns.map fun c => Text.fold c.name).Nodup ∧
      t.columns.countP (·.primaryKey) = 1 ∧
      ∀ c ∈ t.columns, ∀ r, c.references = some r → HasColumn tables r.table r.column := by
  have href (r : ForeignKey) : HasColumn tables r.table r.column ↔
      ∃ target, findFolded? tables r.table = some target ∧ (target.column? r.column).isSome := by
    simp only [HasColumn, exists_findFolded?_iff h, Table.column?_isSome_iff]
  simp only [href, List.countP_eq_length_filter]
  exact ⟨fun hs => ⟨hs.columns, hs.key, hs.references⟩, fun hs => ⟨hs.1, hs.2.1, hs.2.2⟩⟩

lemma index_sound_iff (h : DistinctNames tables) {i : Index} :
    i.Sound tables ↔ i.columns ≠ [] ∧ ∃ t ∈ tables, Text.fold t.name = Text.fold i.table ∧
      ∀ name ∈ i.columns, ∃ c ∈ t.columns, Text.fold c.name = Text.fold name := by
  simp only [← Table.column?_isSome_iff, ← exists_findFolded?_iff h]
  exact ⟨fun hs => ⟨hs.columns, hs.table⟩, fun hs => ⟨hs.1, hs.2⟩⟩

end

lemma consistent_iff_wellFormed {tables : List Table} {indexes : List Index} :
    Consistent tables indexes ↔ WellFormed tables indexes := by
  constructor
  · intro h
    have htables := fun t ht => (table_sound_iff h.names).mp (h.sound t ht)
    exact
      { tableNames := h.names
        columnNames := fun t ht => (htables t ht).1
        key := fun t ht => (htables t ht).2.1
        references := fun t ht => (htables t ht).2.2
        indexNames := h.indexNames
        indexColumns := fun i hi => (index_sound_iff h.names).mp (h.soundIndexes i hi)
        acyclic := (leftOver_eq_nil_iff h.names).mp h.order }
  · intro h
    exact
      { names := h.tableNames
        sound := fun t ht => (table_sound_iff h.tableNames).mpr
          ⟨h.columnNames t ht, h.key t ht, h.references t ht⟩
        indexNames := h.indexNames
        soundIndexes := fun i hi => (index_sound_iff h.tableNames).mpr (h.indexColumns i hi)
        order := (leftOver_eq_nil_iff h.tableNames).mpr h.acyclic }

lemma Consistent.ofDescriptions_eq {tables : List Table} {indexes : List Index}
    (h : Consistent tables indexes) : ofDescriptions tables indexes =
      ⟨tables.map fun t => (t.name, t), indexes.map fun i => (i.name, i)⟩ := by
  rw [ofDescriptions, Keyed.ofList_of_nodup _ _ h.distinct_tables,
    Keyed.ofList_of_nodup _ _ h.distinct_indexes]

/-- A schema is made of well-formed declarations and holds them under their names, in their order;
any others are refused. -/
theorem build_eq_ok_iff_wellFormed (tables : List Table) (indexes : List Index) :
    (∀ s, build tables indexes = .ok s ↔ WellFormed tables indexes ∧
      s = ⟨tables.map fun t => (t.name, t), indexes.map fun i => (i.name, i)⟩) ∧
    ((∃ e : SchemaError, build tables indexes = .error e) ↔ ¬ WellFormed tables indexes) := by
  have hok : ∀ s, build tables indexes = .ok s ↔ WellFormed tables indexes ∧
      s = ⟨tables.map fun t => (t.name, t), indexes.map fun i => (i.name, i)⟩ := fun s => by
    rw [build_eq_ok_iff, ← consistent_iff_wellFormed]
    exact and_congr_right fun h => by rw [h.ofDescriptions_eq]
  refine ⟨hok, ?_⟩
  cases hb : build tables indexes with
  | ok s => exact iff_of_false (by simp) (not_not.mpr ((hok s).mp hb).1)
  | error e =>
    refine iff_of_true ⟨e, rfl⟩ fun h => ?_
    rw [(hok _).mpr ⟨h, rfl⟩] at hb
    cases hb

end Tablewright.Schema
