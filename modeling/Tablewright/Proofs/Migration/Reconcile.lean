import Tablewright.Migration.Plan
import Tablewright.Proofs.Migration.Phases
import Tablewright.Proofs.Outcome

namespace Tablewright

open LiveSchema

def lacking (existing : Table) (columns : List Column) : List Column :=
  columns.filter fun c => (existing.column? c.name).isNone

def missingColumns (live : LiveSchema) (tables : List Table) : List (String × Column) :=
  tables.flatMap fun t =>
    match live.findTable? t.name with
    | none => []
    | some existing => (lacking existing t.columns).map fun c => (existing.name, c)

lemma addMissing_eq_ok_iff (table : String) (existing : Table) (columns : List Column)
    (changes : List Ddl) :
    addMissing table existing columns = .ok changes ↔
      (∀ c ∈ lacking existing columns, checkAddable table c = .ok ()) ∧
        changes = additions ((lacking existing columns).map fun c => (existing.name, c)) := by
  induction columns generalizing changes with
  | nil => simp [addMissing, lacking, additions, eq_comm]
  | cons c rest ih =>
    cases hc : existing.column? c.name with
    | some d =>
      have hl : lacking existing (c :: rest) = lacking existing rest := by simp [lacking, hc]
      simp only [addMissing, hc, Option.isSome_some, if_true, hl, ih]
    | none =>
      have hl : lacking existing (c :: rest) = c :: lacking existing rest := by
        simp [lacking, hc]
      simp only [addMissing, hc, Option.isSome_none, Bool.false_eq_true, if_false, hl,
        bind_eq_ok_iff, map_eq_ok_iff, ih, List.forall_mem_cons]
      constructor
      · rintro ⟨_, ha, others, ⟨hrest, rfl⟩, rfl⟩
        exact ⟨⟨ha, hrest⟩, rfl⟩
      · rintro ⟨⟨ha, hrest⟩, rfl⟩
        exact ⟨(), ha, _, ⟨hrest, rfl⟩, rfl⟩

lemma addToExisting_eq_ok {live : LiveSchema} {tables : List Table} {changes : List Ddl}
    (h : addToExisting live tables = .ok changes) :
    changes = additions (missingColumns live tables) := by
  induction tables generalizing changes with
  | nil => simpa [addToExisting, missingColumns, additions, eq_comm] using h
  | cons t rest ih =>
    cases hf : live.findTable? t.name with
    | none =>
      have hrest : addToExisting live rest = .ok changes := by simpa [addToExisting, hf] using h
      rw [ih hrest]
      simp [missingColumns, hf]
    | some existing =>
      simp only [addToExisting, hf, bind_eq_ok_iff, map_eq_ok_iff] at h
      obtain ⟨here, hm, others, ho, rfl⟩ := h
      rw [((addMissing_eq_ok_iff _ _ _ _).mp hm).2, ih ho]
      simp [missingColumns, hf, additions]

def creationOrder (declared : Schema) (live : LiveSchema) : List Table :=
  (orderByReferences (missingTables declared live)).ordered

/-- A plan creates the missing tables in the order of their references, then adds the missing
columns, then creates the missing indexes. -/
lemma reconcile_eq_ok {declared : Schema} {live : LiveSchema} {plan : Plan}
    (h : reconcile declared live = .ok plan) :
    (orderByReferences (missingTables declared live)).leftOver = [] ∧
      plan.operations =
        creations (creationOrder declared live) ++
          additions (missingColumns live declared.tables.values) ++
          indexings (missingIndexes declared live) := by
  cases hl : (orderByReferences (missingTables declared live)).leftOver with
  | cons name rest => simp [reconcile, hl] at h
  | nil =>
    simp only [reconcile, hl, List.isEmpty_nil, Bool.not_true, Bool.false_eq_true, if_false,
      map_eq_ok_iff] at h
    obtain ⟨changes, ha, rfl⟩ := h
    exact ⟨rfl, by rw [addToExisting_eq_ok ha]; rfl⟩

lemma addToExisting_of_holds {s : LiveSchema} {tables : List Table}
    (h : ∀ t ∈ tables, ∃ found, s.findTable? t.name = some found ∧
      ∀ c ∈ t.columns, (found.column? c.name).isSome) :
    addToExisting s tables = .ok [] := by
  induction tables with
  | nil => rfl
  | cons t rest ih =>
    obtain ⟨⟨found, hf, hcolumns⟩, hrest⟩ := List.forall_mem_cons.mp h
    have hnone : lacking found t.columns = [] := by
      rw [lacking, List.filter_eq_nil_iff]
      intro c hc
      simpa [Option.isSome_iff_ne_none] using hcolumns c hc
    have hm : addMissing t.name found t.columns = .ok [] := by
      rw [addMissing_eq_ok_iff, hnone]
      exact ⟨by simp, rfl⟩
    simp only [addToExisting, hf, hm, ih hrest, Except.bind, Except.map, List.append_nil]

lemma reconcile_of_holds {declared : Schema} {s : LiveSchema} (h : s.Holds declared) :
    reconcile declared s = .ok ⟨[]⟩ := by
  have htables : missingTables declared s = [] := by
    rw [missingTables, List.filter_eq_nil_iff]
    intro t ht
    obtain ⟨found, hf, -⟩ := h.tables t ht
    simp [hf]
  have hindexes : missingIndexes declared s = [] := by
    rw [missingIndexes, List.filter_eq_nil_iff]
    intro i hi
    simp [h.indexes i hi]
  have horder : orderByReferences [] = ⟨[], []⟩ := rfl
  simp only [reconcile, htables, hindexes, horder, addToExisting_of_holds h.tables, Except.map]
  rfl

section

variable {tables : List Table} {indexes : List Index} {live : LiveSchema}

lemma mem_missingTables (hc : Schema.Consistent tables indexes) {t : Table} :
    t ∈ missingTables (.ofDescriptions tables indexes) live ↔
      t ∈ tables ∧ live.findTable? t.name = none := by
  simp [missingTables, hc.values_tables]

lemma missingTables_distinct (hc : Schema.Consistent tables indexes) :
    DistinctNames (missingTables (.ofDescriptions tables indexes) live) := by
  rw [missingTables, hc.values_tables]
  exact hc.names.sublist (List.filter_sublist.map _)

lemma missingIndexes_distinct (hc : Schema.Consistent tables indexes) :
    ((missingIndexes (.ofDescriptions tables indexes) live).map
      fun i => Text.fold i.name).Nodup := by
  rw [missingIndexes, hc.values_indexes]
  exact hc.indexNames.sublist (List.filter_sublist.map _)

lemma mem_missingColumns {p : String × Column} :
    p ∈ missingColumns live tables ↔ ∃ t ∈ tables, ∃ existing,
      live.findTable? t.name = some existing ∧ existing.name = p.1 ∧ p.2 ∈ t.columns ∧
        existing.column? p.2.name = none := by
  rw [missingColumns, List.mem_flatMap]
  constructor
  · rintro ⟨t, ht, hp⟩
    cases hf : live.findTable? t.name with
    | none => simp [hf] at hp
    | some existing =>
      simp only [hf, List.mem_map, lacking, List.mem_filter, Option.isNone_iff_eq_none] at hp
      obtain ⟨c, ⟨hc, hnone⟩, rfl⟩ := hp
      exact ⟨t, ht, existing, hf, rfl, hc, hnone⟩
  · rintro ⟨t, ht, existing, hf, hname, hc, hnone⟩
    refine ⟨t, ht, ?_⟩
    simp only [hf, List.mem_map, lacking, List.mem_filter, Option.isNone_iff_eq_none]
    exact ⟨p.2, ⟨hc, hnone⟩, by rw [hname]⟩

lemma missingColumns_pairwise (hc : Schema.Consistent tables indexes) (hn : live.Named) :
    (missingColumns live tables).Pairwise
      fun p q => p.1 = q.1 → Text.fold p.2.name ≠ Text.fold q.2.name := by
  rw [missingColumns, List.pairwise_flatMap]
  constructor
  · intro t ht
    cases live.findTable? t.name with
    | none => simp
    | some existing =>
      have hcolumns := List.pairwise_map.mp (hc.sound t ht).columns
      rw [List.pairwise_map]
      refine (hcolumns.filter _).imp ?_
      intro c d h _
      exact h
  · -- columns of different declared tables go to different live tables
    refine (List.pairwise_map.mp hc.names).imp ?_
    intro t u hne p hp q hq hpq
    cases ht : live.findTable? t.name with
    | none => simp [ht] at hp
    | some existing =>
      cases hu : live.findTable? u.name with
      | none => simp [hu] at hq
      | some other =>
        simp only [ht, List.mem_map] at hp
        simp only [hu, List.mem_map] at hq
        obtain ⟨c, -, rfl⟩ := hp
        obtain ⟨d, -, rfl⟩ := hq
        have hpq : existing.name = other.name := hpq
        exact absurd ((findTable?_name hn ht).symm.trans
          (hpq ▸ findTable?_name hn hu)) hne

variable (hc : Schema.Consistent tables indexes) (hn : live.Named)

include hc

lemma declared_of_reference {t : Table} (ht : t ∈ tables) {c : Column} (hcol : c ∈ t.columns)
    {r : ForeignKey} (hr : c.references = some r) :
    ∃ target ∈ tables, Text.fold target.name = Text.fold r.table := by
  obtain ⟨target, hf, -⟩ := (hc.sound t ht).references c hcol r hr
  obtain ⟨hmem, hfold⟩ := Schema.findFolded?_eq_some hf
  exact ⟨target, hmem, hfold⟩

variable
  (hl : (orderByReferences (missingTables (.ofDescriptions tables indexes) live)).leftOver = [])

include hl

lemma creationOrder_perm :
    (creationOrder (.ofDescriptions tables indexes) live).Perm
      (missingTables (.ofDescriptions tables indexes) live) :=
  orderByReferences_perm (missingTables_distinct hc) hl

lemma creationOrder_distinct : DistinctNames (creationOrder (.ofDescriptions tables indexes) live) :=
  (missingTables_distinct hc).perm (creationOrder_perm hc hl)

lemma mem_creationOrder {t : Table} :
    t ∈ creationOrder (.ofDescriptions tables indexes) live ↔
      t ∈ tables ∧ live.findTable? t.name = none := by
  rw [(creationOrder_perm hc hl).mem_iff, mem_missingTables hc]

lemma runs_creationOrder :
    live.Runs (creations (creationOrder (.ofDescriptions tables indexes) live)) := by
  refine runs_creations (orderByReferences_follows (missingTables_distinct hc))
    (creationOrder_distinct hc hl) (fun t ht => ((mem_creationOrder hc hl).mp ht).2) ?_
  intro t ht name hname hav
  obtain ⟨c, hcol, hmap⟩ := List.mem_filterMap.mp hname
  obtain ⟨r, hr, rfl⟩ := Option.map_eq_some_iff.mp hmap
  obtain ⟨target, htarget, hfold⟩ :=
    declared_of_reference hc ((mem_creationOrder hc hl).mp ht).1 hcol hr
  -- a declared table that is not among the missing ones is live
  rw [← findTable?_congr live hfold, Option.isSome_iff_ne_none]
  intro hnone
  exact hav (List.mem_map.mpr ⟨target, (mem_missingTables hc).mpr ⟨htarget, hnone⟩, hfold⟩)

lemma found_after_creations {t : Table} (ht : t ∈ tables) :
    ∃ found, (live.applyAll (creations
        (creationOrder (.ofDescriptions tables indexes) live))).findTable? t.name = some found ∧
      (live.findTable? t.name = some found ∨
        live.findTable? t.name = none ∧ found = t) := by
  rw [findTable?_creations (runs_creationOrder hc hl)]
  cases hf : live.findTable? t.name with
  | some existing => exact ⟨existing, rfl, Or.inl rfl⟩
  | none =>
    refine ⟨t, ?_, Or.inr ⟨rfl, rfl⟩⟩
    rw [Option.none_or, (creationOrder_distinct hc hl).find? ((mem_creationOrder hc hl).mpr ⟨ht, hf⟩)]

lemma found_reference_after_creations {t : Table} (ht : t ∈ tables) {c : Column}
    (hcol : c ∈ t.columns) {r : ForeignKey} (hr : c.references = some r) :
    ((live.applyAll (creations
      (creationOrder (.ofDescriptions tables indexes) live))).findTable? r.table).isSome := by
  obtain ⟨target, htarget, hfold⟩ := declared_of_reference hc ht hcol hr
  obtain ⟨found, hf, -⟩ := found_after_creations hc hl htarget
  rw [← findTable?_congr _ hfold, hf]
  rfl

include hn

lemma runs_missingColumns :
    (live.applyAll (creations (creationOrder (.ofDescriptions tables indexes) live))).Runs
      (additions (missingColumns live tables)) := by
  refine runs_additions (hn.applyAll _) (missingColumns_pairwise hc hn) ?_ ?_
  · intro p hp
    obtain ⟨t, -, existing, hf, hname, -, hnone⟩ := mem_missingColumns.mp hp
    refine ⟨existing, ?_, hname, hnone⟩
    rw [findTable?_creations (runs_creationOrder hc hl), ← hname,
      findTable?_congr live (findTable?_name hn hf), hf, Option.some_or]
  · intro p hp r hr
    obtain ⟨t, ht, -, -, -, hcol, -⟩ := mem_missingColumns.mp hp
    exact found_reference_after_creations hc hl ht hcol hr

lemma found_after_additions {t : Table} (ht : t ∈ tables) :
    ∃ found, ((live.applyAll (creations
        (creationOrder (.ofDescriptions tables indexes) live))).applyAll
          (additions (missingColumns live tables))).findTable? t.name = some found ∧
      ∀ c ∈ t.columns, (found.column? c.name).isSome := by
  obtain ⟨found, hf, hfrom⟩ := found_after_creations hc hl ht
  refine ⟨found.extend (addedTo found (missingColumns live tables)), ?_, ?_⟩
  · rw [findTable?_additions (hn.applyAll _), hf]
    rfl
  · intro c hcol
    rw [Table.extend_column?, Option.isSome_or, Bool.or_eq_true]
    cases hlack : found.column? c.name with
    | some d => exact Or.inl rfl
    | none =>
      right
      rcases hfrom with hlive | ⟨-, rfl⟩
      · -- what the live table lacks has been added to it
        have hmem : c ∈ addedTo found (missingColumns live tables) :=
          mem_addedTo.mpr (mem_missingColumns.mpr ⟨t, ht, found, hlive, rfl, hcol, hlack⟩)
        exact List.find?_isSome.mpr ⟨c, hmem, by simp⟩
      · have hsome := (found.column?_isSome_iff c.name).mpr ⟨c, hcol, rfl⟩
        rw [hlack] at hsome
        cases hsome

lemma runs_missingIndexes :
    ((live.applyAll (creations
      (creationOrder (.ofDescriptions tables indexes) live))).applyAll
        (additions (missingColumns live tables))).Runs
      (indexings (missingIndexes (.ofDescriptions tables indexes) live)) := by
  refine runs_indexings (missingIndexes_distinct hc) ?_ ?_
  · intro i hi
    rw [hasIndex_additions, hasIndex_creations]
    simpa using (List.mem_filter.mp hi).2
  · intro i hi
    have hmem : i ∈ indexes := by
      rw [missingIndexes, hc.values_indexes] at hi
      exact (List.mem_filter.mp hi).1
    obtain ⟨t, ht, hcolumns⟩ := (hc.soundIndexes i hmem).table
    obtain ⟨htmem, hfold⟩ := Schema.findFolded?_eq_some ht
    obtain ⟨found, hf, hall⟩ := found_after_additions hc hn hl htmem
    refine ⟨found, by rw [← findTable?_congr _ hfold, hf], fun name hname => ?_⟩
    obtain ⟨c, hcol, hcname⟩ := (t.column?_isSome_iff name).mp (hcolumns name hname)
    rw [← Table.column?_congr found hcname]
    exact hall c hcol

end

section

variable {tables : List Table} {indexes : List Index} {live : LiveSchema} {declared : Schema}
  {plan : Plan}

lemma runs_of_reconcile (hb : Schema.build tables indexes = .ok declared) (hn : live.Named)
    (hr : reconcile declared live = .ok plan) : live.Runs plan.operations := by
  obtain ⟨hc, rfl⟩ := Schema.build_eq_ok_iff.mp hb
  obtain ⟨hl, hops⟩ := reconcile_eq_ok hr
  rw [hops, hc.values_tables, runs_append, runs_append, applyAll_append]
  exact ⟨⟨runs_creationOrder hc hl, runs_missingColumns hc hn hl⟩, runs_missingIndexes hc hn hl⟩

lemma holds_of_reconcile (hb : Schema.build tables indexes = .ok declared) (hn : live.Named)
    (hr : reconcile declared live = .ok plan) : (live.applyAll plan.operations).Holds declared := by
  obtain ⟨hc, rfl⟩ := Schema.build_eq_ok_iff.mp hb
  obtain ⟨hl, hops⟩ := reconcile_eq_ok hr
  rw [hops, hc.values_tables, applyAll_append, applyAll_append]
  constructor
  · intro t ht
    rw [hc.values_tables] at ht
    simpa only [findTable?_indexings] using found_after_additions hc hn hl ht
  · intro i hi
    rw [hasIndex_indexings (runs_missingIndexes hc hn hl), hasIndex_additions, hasIndex_creations]
    cases hlive : live.hasIndex i.name with
    | true => rfl
    | false =>
      have hmem : i ∈ missingIndexes (.ofDescriptions tables indexes) live :=
        List.mem_filter.mpr ⟨hi, by simp [hlive]⟩
      rw [Bool.false_or, List.any_eq_true]
      exact ⟨i, hmem, by simp⟩

end

end Tablewright
