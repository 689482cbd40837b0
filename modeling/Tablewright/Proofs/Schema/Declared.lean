import Mathlib.Data.List.Basic
import Mathlib.Tactic.Tauto
import Tablewright.Proofs.Schema.Order
import Tablewright.Schema.Declared

namespace Tablewright

lemma Table.column?_congr (t : Table) {name other : String} (h : Text.fold name = Text.fold other) :
    t.column? name = t.column? other := by
  simp only [Table.column?, h]

lemma Table.column?_isSome_iff (t : Table) (name : String) :
    (t.column? name).isSome ↔ ∃ c ∈ t.columns, Text.fold c.name = Text.fold name := by
  simp [Table.column?, List.find?_isSome]

def Table.foldedNames (t : Table) : List String := t.columnNames.map Text.fold

lemma Table.mem_foldedNames_iff {t : Table} {name : String} :
    Text.fold name ∈ t.foldedNames ↔ (t.column? name).isSome := by
  rw [t.column?_isSome_iff, foldedNames, columnNames, List.map_map]
  exact List.mem_map

lemma Table.column_eq_of_fold {t : Table} (ht : t.foldedNames.Nodup) {c d : Column}
    (hc : c ∈ t.columns) (hd : d ∈ t.columns) (h : Text.fold c.name = Text.fold d.name) :
    c = d := by
  rw [Table.foldedNames, Table.columnNames, List.map_map] at ht
  exact List.inj_on_of_nodup_map ht hc hd h

structure Table.Sound (tables : List Table) (t : Table) : Prop where
  columns : (t.columns.map fun c => Text.fold c.name).Nodup
  key : (t.columns.filter (·.primaryKey)).length = 1
  references : ∀ c ∈ t.columns, ∀ r, c.references = some r →
    ∃ target, Schema.findFolded? tables r.table = some target ∧ (target.column? r.column).isSome

structure Index.Sound (tables : List Table) (i : Index) : Prop where
  columns : i.columns ≠ []
  table : ∃ t, Schema.findFolded? tables i.table = some t ∧
    ∀ c ∈ i.columns, (t.column? c).isSome

namespace Schema

structure Consistent (tables : List Table) (indexes : List Index) : Prop where
  names : DistinctNames tables
  sound : ∀ t ∈ tables, t.Sound tables
  indexNames : (indexes.map fun i => Text.fold i.name).Nodup
  soundIndexes : ∀ i ∈ indexes, i.Sound tables
  order : (orderByReferences tables).leftOver = []

lemma findFolded?_eq_some {tables : List Table} {name : String} {t : Table}
    (h : findFolded? tables name = some t) : t ∈ tables ∧ Text.fold t.name = Text.fold name :=
  ⟨List.mem_of_find?_eq_some h, by simpa using List.find?_some h⟩

lemma firstRepeat?_eq_none_iff {α : Type} (key : α → String) (seen : List String)
    (items : List α) :
    firstRepeat? key seen items = none ↔
      (items.map key).Nodup ∧ ∀ a ∈ items, key a ∉ seen := by
  induction items generalizing seen with
  | nil => simp [firstRepeat?]
  | cons a rest ih =>
    by_cases ha : key a ∈ seen
    · simp [firstRepeat?, ha]
    · simp only [firstRepeat?, List.contains_eq_mem, ha, decide_false, Bool.false_eq_true,
        if_false, ih, List.mem_cons, not_or, List.map_cons, List.nodup_cons, List.mem_map]
      constructor
      · rintro ⟨hn, hs⟩
        refine ⟨⟨?_, hn⟩, ?_⟩
        · rintro ⟨b, hb, hk⟩
          exact (hs b hb).1 hk
        · rintro b (rfl | hb)
          · exact ha
          · exact (hs b hb).2
      · rintro ⟨⟨ha', hn⟩, hs⟩
        exact ⟨hn, fun b hb => ⟨fun hk => ha' ⟨b, hb, hk⟩, hs b (Or.inr hb)⟩⟩

lemma checkReferences_eq_ok_iff (tables : List Table) (table : Table) (columns : List Column) :
    checkReferences tables table columns = .ok () ↔
      ∀ c ∈ columns, ∀ r, c.references = some r →
        ∃ target, findFolded? tables r.table = some target ∧
          (target.column? r.column).isSome := by
  induction columns with
  | nil => simp [checkReferences]
  | cons c rest ih =>
    cases hr : c.references with
    | none => simp [checkReferences, hr, ih]
    | some r =>
      by_cases hf : ((findFolded? tables r.table).bind (·.column? r.column)).isSome
      · simp only [checkReferences, hr, hf, if_true, ih, List.forall_mem_cons]
        have hfound : ∃ target, findFolded? tables r.table = some target ∧
            (target.column? r.column).isSome := by
          simpa [Option.isSome_bind, Option.any_eq_true] using hf
        simp [hfound]
      · simp only [checkReferences, hr, hf, List.forall_mem_cons]
        have hlost : ¬ ∃ target, findFolded? tables r.table = some target ∧
            (target.column? r.column).isSome := by
          simpa [Option.isSome_bind, Option.any_eq_true] using hf
        simp [hlost]

lemma checkTable_eq_ok_iff (tables : List Table) (t : Table) :
    checkTable tables t = .ok () ↔ t.Sound tables := by
  have hrepeat := firstRepeat?_eq_none_iff (fun c : Column => Text.fold c.name) [] t.columns
  cases hf : firstRepeat? (fun c : Column => Text.fold c.name) [] t.columns with
  | some c =>
    simp only [checkTable, hf]
    refine ⟨fun h => (by cases h), fun h => ?_⟩
    rw [hf] at hrepeat
    exact absurd (hrepeat.mpr ⟨h.columns, by simp⟩) (by simp)
  | none =>
    have hcolumns := (hrepeat.mp hf).1
    by_cases hk : (t.columns.filter (·.primaryKey)).length = 1
    · simp only [checkTable, hf, hk, if_true, checkReferences_eq_ok_iff]
      exact ⟨fun h => ⟨hcolumns, hk, h⟩, fun h => h.references⟩
    · simp only [checkTable, hf, hk, if_false]
      exact ⟨fun h => (by cases h), fun h => absurd h.key hk⟩

lemma checkTables_eq_ok_iff (all tables : List Table) :
    checkTables all tables = .ok () ↔ ∀ t ∈ tables, t.Sound all := by
  induction tables with
  | nil => simp [checkTables]
  | cons t rest ih =>
    cases ht : checkTable all t with
    | ok u =>
      have hs := (checkTable_eq_ok_iff all t).mp ht
      simp [checkTables, ht, ih, hs]
    | error e =>
      have hs : ¬ t.Sound all := by
        rw [← checkTable_eq_ok_iff, ht]
        simp
      simp [checkTables, ht, hs]

lemma checkIndex_eq_ok_iff (tables : List Table) (i : Index) :
    checkIndex tables i = .ok () ↔ i.Sound tables := by
  cases hf : findFolded? tables i.table with
  | none =>
    simp only [checkIndex, hf]
    refine ⟨fun h => (by cases h), ?_⟩
    rintro ⟨-, t, ht, -⟩
    rw [hf] at ht
    cases ht
  | some t =>
    by_cases he : i.columns = []
    · simp only [checkIndex, hf, he, List.isEmpty_nil, if_true]
      exact ⟨fun h => (by cases h), fun h => absurd he h.columns⟩
    · have hne : i.columns.isEmpty = false := by simpa using he
      cases hc : i.columns.find? fun c => (t.column? c).isNone with
      | some c =>
        simp only [checkIndex, hf, hne, hc]
        refine ⟨fun h => (by cases h), ?_⟩
        rintro ⟨-, u, hu, hcols⟩
        obtain rfl : t = u := Option.some.inj (hf.symm.trans hu)
        have hsome := hcols c (List.mem_of_find?_eq_some hc)
        have hnone : (t.column? c).isNone := by simpa using List.find?_some hc
        rw [Option.isNone_iff_eq_none.mp hnone] at hsome
        cases hsome
      | none =>
        simp only [checkIndex, hf, hne, hc]
        refine ⟨fun _ => ⟨he, t, hf, fun c hmem => ?_⟩, fun _ => rfl⟩
        simpa [Option.isSome_iff_ne_none] using List.find?_eq_none.mp hc c hmem

lemma checkIndexes_eq_ok_iff (tables : List Table) (seen : List String) (indexes : List Index) :
    checkIndexes tables seen indexes = .ok () ↔
      (∀ i ∈ indexes, i.Sound tables) ∧ (indexes.map fun i => Text.fold i.name).Nodup ∧
        ∀ i ∈ indexes, Text.fold i.name ∉ seen := by
  -- `seen` has the names of the indexes that were checked before
  induction indexes generalizing seen with
  | nil => simp [checkIndexes]
  | cons i rest ih =>
    by_cases hs : Text.fold i.name ∈ seen
    · simp [checkIndexes, hs]
    · cases hi : checkIndex tables i with
      | error e =>
        have hsound : ¬ i.Sound tables := by
          rw [← checkIndex_eq_ok_iff, hi]
          simp
        simp [checkIndexes, hs, hi, hsound]
      | ok u =>
        have hsound := (checkIndex_eq_ok_iff tables i).mp hi
        have hstep : checkIndexes tables seen (i :: rest) =
            checkIndexes tables (Text.fold i.name :: seen) rest := by
          simp [checkIndexes, hs, hi]
        rw [hstep, ih, List.forall_mem_cons, List.forall_mem_cons, List.map_cons, List.nodup_cons]
        constructor
        · rintro ⟨hrest, hn, hseen⟩
          refine ⟨⟨hsound, hrest⟩, ⟨?_, hn⟩, hs, ?_⟩
          · intro hmem
            obtain ⟨j, hj, hk⟩ := List.mem_map.mp hmem
            exact hseen j hj (by rw [hk]; exact List.mem_cons_self)
          · intro j hj hk
            exact hseen j hj (List.mem_cons_of_mem _ hk)
        · rintro ⟨⟨-, hrest⟩, ⟨hnew, hn⟩, -, hseen⟩
          refine ⟨hrest, hn, fun j hj hk => ?_⟩
          rcases List.mem_cons.mp hk with hk | hk
          · exact hnew (List.mem_map.mpr ⟨j, hj, hk⟩)
          · exact hseen j hj hk

lemma check_eq_ok_iff (tables : List Table) (indexes : List Index) :
    check tables indexes = .ok () ↔ Consistent tables indexes := by
  have hrepeat := firstRepeat?_eq_none_iff (fun t : Table => Text.fold t.name) [] tables
  cases hf : firstRepeat? (fun t : Table => Text.fold t.name) [] tables with
  | some t =>
    simp only [check, hf]
    refine ⟨fun h => (by cases h), fun h => ?_⟩
    rw [hf] at hrepeat
    exact absurd (hrepeat.mpr ⟨h.names, by simp⟩) (by simp)
  | none =>
    have hnames : DistinctNames tables := (hrepeat.mp hf).1
    cases ht : checkTables tables tables with
    | error e =>
      simp only [check, hf, ht]
      refine ⟨fun h => (by cases h), fun h => ?_⟩
      rw [(checkTables_eq_ok_iff tables tables).mpr h.sound] at ht
      cases ht
    | ok u =>
      have htables := (checkTables_eq_ok_iff tables tables).mp ht
      cases hi : checkIndexes tables [] indexes with
      | error e =>
        simp only [check, hf, ht, hi]
        refine ⟨fun h => (by cases h), fun h => ?_⟩
        rw [(checkIndexes_eq_ok_iff tables [] indexes).mpr
          ⟨h.soundIndexes, h.indexNames, by simp⟩] at hi
        cases hi
      | ok u =>
        obtain ⟨hindexes, hindexNames, -⟩ := (checkIndexes_eq_ok_iff tables [] indexes).mp hi
        by_cases ho : (orderByReferences tables).leftOver = []
        · simp only [check, hf, ht, hi, ho, List.isEmpty_nil, if_true, true_iff]
          exact ⟨hnames, htables, hindexNames, hindexes, ho⟩
        · have hne : (orderByReferences tables).leftOver.isEmpty = false := by simpa using ho
          simp only [check, hf, ht, hi, hne]
          exact ⟨fun h => (by cases h), fun h => absurd h.order ho⟩

lemma build_eq_ok_iff {tables : List Table} {indexes : List Index} {s : Schema} :
    build tables indexes = .ok s ↔
      Consistent tables indexes ∧ s = ofDescriptions tables indexes := by
  rw [← check_eq_ok_iff]
  cases h : check tables indexes with
  | ok u => simp [build, h, eq_comm]
  | error e => simp [build, h]

lemma Consistent.distinct_tables {tables : List Table} {indexes : List Index}
    (h : Consistent tables indexes) : (tables.map (·.name)).Nodup := by
  have hn : ((tables.map (·.name)).map Text.fold).Nodup := by
    rw [List.map_map]
    exact h.names
  exact List.Nodup.of_map _ hn

lemma Consistent.distinct_indexes {tables : List Table} {indexes : List Index}
    (h : Consistent tables indexes) : (indexes.map (·.name)).Nodup := by
  have hn : ((indexes.map (·.name)).map Text.fold).Nodup := by
    rw [List.map_map]
    exact h.indexNames
  exact List.Nodup.of_map _ hn

lemma Consistent.distinct_columns {tables : List Table} {indexes : List Index}
    (h : Consistent tables indexes) {t : Table} (ht : t ∈ tables) : t.foldedNames.Nodup := by
  rw [Table.foldedNames, Table.columnNames, List.map_map]
  exact (h.sound t ht).columns

lemma Consistent.values_tables {tables : List Table} {indexes : List Index}
    (h : Consistent tables indexes) : (ofDescriptions tables indexes).tables.values = tables :=
  Keyed.values_ofList _ _ h.distinct_tables

lemma Consistent.values_indexes {tables : List Table} {indexes : List Index}
    (h : Consistent tables indexes) : (ofDescriptions tables indexes).indexes.values = indexes :=
  Keyed.values_ofList _ _ h.distinct_indexes

lemma Consistent.mem_of_get? {tables : List Table} {indexes : List Index}
    (h : Consistent tables indexes) {name : String} {t : Table}
    (hget : (ofDescriptions tables indexes).tables.get? name = some t) :
    t ∈ tables ∧ t.name = name := by
  obtain ⟨front, back, heq, -⟩ := List.lookup_eq_some_iff.mp hget
  have hmem : (name, t) ∈ (ofDescriptions tables indexes).tables := by
    rw [heq]
    exact List.mem_append_right _ List.mem_cons_self
  exact ⟨h.values_tables ▸ List.mem_map_of_mem (f := (·.2)) hmem,
    (Keyed.key_of_mem_ofList (·.name) tables _ hmem).symm⟩

lemma Consistent.eq_of_get? {tables : List Table} {indexes : List Index}
    (h : Consistent tables indexes) {t u : Table} (ht : t ∈ tables)
    (hget : (ofDescriptions tables indexes).tables.get? t.name = some u) : u = t := by
  obtain ⟨hu, hname⟩ := h.mem_of_get? hget
  exact List.inj_on_of_nodup_map h.distinct_tables hu ht hname

end Schema

end Tablewright
