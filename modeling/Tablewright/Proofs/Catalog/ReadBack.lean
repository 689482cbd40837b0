import Tablewright.Proofs.Catalog.Reported
import Tablewright.Proofs.Engine.Job
import Tablewright.Proofs.Migration.Known

namespace Tablewright

open LiveSchema

/-- What is reported of a live schema: each of its tables once, in any order. -/
def LiveSchema.Reported (s : LiveSchema) (reports : List InspectedTable) : Prop :=
  ∃ order : List Table, order.Perm s.tables.values ∧
    List.Forall₂ (InspectedTable.Reports s.indexes.values) order reports

/-- An index as it is read, under the name that its table was declared with. -/
def Index.readBack (tables : List Table) (i : Index) : Index :=
  { i with table := ((Schema.findFolded? tables i.table).map (·.name)).getD i.table }

section

variable {tables : List Table} {indexes : List Index} {plan : Plan}
  (hc : Schema.Consistent tables indexes)

include hc

lemma missingTables_empty : missingTables (.ofDescriptions tables indexes) {} = tables := by
  rw [missingTables, hc.values_tables]
  exact List.filter_eq_self.mpr fun _ _ => rfl

lemma reconcile_empty : ∃ plan, reconcile (.ofDescriptions tables indexes) {} = .ok plan := by
  have hadditions : ∀ ts, addToExisting {} ts = .ok [] := by
    intro ts
    induction ts with
    | nil => rfl
    | cons t rest ih => exact ih
  rw [reconcile, missingTables_empty hc, hc.order, hadditions]
  exact ⟨_, rfl⟩

lemma created_of_reconcile_empty
    (hr : reconcile (.ofDescriptions tables indexes) {} = .ok plan) :
    (({} : LiveSchema).applyAll plan.operations).tables.values.Perm tables ∧
      (({} : LiveSchema).applyAll plan.operations).indexes.values = indexes := by
  have hb := Schema.build_eq_ok_iff.mpr ⟨hc, rfl⟩
  have hnamed : ({} : LiveSchema).Named := fun _ he => absurd he List.not_mem_nil
  obtain ⟨hl, hops⟩ := reconcile_eq_ok hr
  have hadditions : missingColumns {} (Schema.ofDescriptions tables indexes).tables.values = [] :=
    List.flatMap_eq_nil_iff.mpr fun _ _ => rfl
  have hindexes : missingIndexes (.ofDescriptions tables indexes) {} = indexes := by
    rw [missingIndexes, hc.values_indexes]
    exact List.filter_eq_self.mpr fun _ _ => rfl
  constructor
  · rw [hops, hadditions, applyAll_append, applyAll_append, tables_indexings]
    have hperm := creationOrder_perm hc hl
    rw [missingTables_empty hc] at hperm
    have hvalues : (({} : LiveSchema).applyAll (creations
        (creationOrder (.ofDescriptions tables indexes) {}))).tables.values =
          creationOrder (.ofDescriptions tables indexes) {} := by
      rw [tables_creations (runs_creationOrder hc hl)]
      simp [Keyed.values, Function.comp_def]
    exact hvalues.symm ▸ hperm
  · rw [indexes_of_reconcile hb hnamed hr, hindexes]
    simp [Keyed.values, Function.comp_def]

lemma columnNames_nodup {t : Table} (ht : t ∈ tables) : t.columnNames.Nodup :=
  List.Nodup.of_map _ (hc.distinct_columns ht)

lemma readBack_of_isOn {t : Table} (ht : t ∈ tables) {i : Index} (h : i.isOn t = true) :
    i.readBack tables = { i with table := t.name } := by
  have hfound : Schema.findFolded? tables i.table = some t := by
    have hfold : Text.fold i.table = Text.fold t.name := by simpa [Index.isOn] using h
    rw [Schema.findFolded?, hfold]
    exact hc.names.find? ht
  rw [Index.readBack, hfound]
  rfl

lemma flatMap_isOn_perm {order : List Table} (horder : order.Perm tables) :
    (order.flatMap fun t => indexes.filter (·.isOn t)).Perm indexes := by
  have hnodup : indexes.Nodup := List.Nodup.of_map _ hc.distinct_indexes
  refine (List.perm_ext_iff_of_nodup ?_ hnodup).mpr fun i => ?_
  · refine List.nodup_flatMap.mpr ⟨fun t _ => hnodup.filter _, ?_⟩
    have hdistinct : DistinctNames order := hc.names.perm horder
    refine (List.pairwise_map.mp hdistinct).imp fun {t u} hne i ht hu => hne ?_
    have htname : Text.fold i.table = Text.fold t.name := by
      simpa [Index.isOn] using (List.mem_filter.mp ht).2
    have huname : Text.fold i.table = Text.fold u.name := by
      simpa [Index.isOn] using (List.mem_filter.mp hu).2
    exact htname.symm.trans huname
  · rw [List.mem_flatMap]
    constructor
    · rintro ⟨t, -, hi⟩
      exact (List.mem_filter.mp hi).1
    · intro hi
      obtain ⟨t, hfound, -⟩ := (hc.soundIndexes i hi).table
      obtain ⟨ht, hfold⟩ := Schema.findFolded?_eq_some hfound
      exact ⟨t, horder.mem_iff.mpr ht, List.mem_filter.mpr ⟨hi, by simp [Index.isOn, hfold]⟩⟩

section

variable {order : List Table} {reports : List InspectedTable} (horder : order.Perm tables)
  (hreports : List.Forall₂ (InspectedTable.Reports indexes) order reports)
  (hauto : ∀ i ∈ indexes, ¬ i.Auto)

include horder hreports hauto

lemma tables_ofInspected :
    (LiveSchema.ofInspected reports).tables = order.map fun t => (t.name, t.readBack) := by
  have hdescribe : reports.map (·.describe) = order.map (·.readBack) :=
    map_eq_of_forall₂ hreports fun t ht r hr =>
      hr.describe (columnNames_nodup hc (horder.mem_iff.mp ht)) hauto
  have hnodup : ((order.map (·.readBack)).map (·.name)).Nodup := by
    rw [List.map_map]
    exact (horder.map _).nodup_iff.mpr hc.distinct_tables
  rw [LiveSchema.ofInspected, ofDescriptions, hdescribe, Keyed.ofList_of_nodup _ _ hnodup,
    List.map_map]
  rfl

lemma flatMap_describeIndexes :
    (reports.flatMap (·.describeIndexes)).Perm (indexes.map (·.readBack tables)) := by
  have hon : (reports.flatMap (·.describeIndexes)).Perm
      (order.flatMap fun t => (indexes.filter (·.isOn t)).map (·.readBack tables)) := by
    have hsubset : order ⊆ tables := horder.subset
    clear horder
    induction hreports with
    | nil => exact .refl _
    | @cons t r order reports hr _ ih =>
      obtain ⟨ht, hrest⟩ := List.cons_subset.mp hsubset
      refine List.Perm.append ?_ (ih hrest)
      have hone := hr.describeIndexes hauto fun i hi => (hc.soundIndexes i hi).columns
      rwa [← List.map_congr_left fun i hi => readBack_of_isOn hc ht (List.mem_filter.mp hi).2]
        at hone
  rw [← List.map_flatMap] at hon
  exact hon.trans ((flatMap_isOn_perm hc horder).map _)

lemma indexes_ofInspected : (LiveSchema.ofInspected reports).indexes.Perm
    (indexes.map fun i => (i.name, i.readBack tables)) := by
  have hperm := flatMap_describeIndexes hc horder hreports hauto
  have hnodup : ((reports.flatMap (·.describeIndexes)).map (·.name)).Nodup := by
    refine (hperm.map _).nodup_iff.mpr ?_
    rw [List.map_map]
    exact hc.distinct_indexes
  rw [LiveSchema.ofInspected, ofDescriptions, Keyed.ofList_of_nodup _ _ hnodup]
  refine (hperm.map _).trans (List.Perm.of_eq ?_)
  rw [List.map_map]
  rfl

lemma holds_ofInspected : (LiveSchema.ofInspected reports).Holds (.ofDescriptions tables indexes) := by
  constructor
  · intro t ht
    rw [hc.values_tables] at ht
    have hfound : (LiveSchema.ofInspected reports).findTable? t.name = some t.readBack := by
      rw [findTable?, tables_ofInspected hc horder hreports hauto, List.find?_map]
      have hfind := (hc.names.perm horder).find? (horder.mem_iff.mpr ht)
      simp only [Function.comp_def, hfind, Option.map_some]
    refine ⟨_, hfound, fun c hcol => (t.readBack.column?_isSome_iff c.name).mpr ?_⟩
    exact ⟨c.readBack, List.mem_map_of_mem hcol, rfl⟩
  · intro i hi
    rw [hc.values_indexes] at hi
    have hmem : (i.name, i.readBack tables) ∈ (LiveSchema.ofInspected reports).indexes :=
      (indexes_ofInspected hc horder hreports hauto).mem_iff.mpr (List.mem_map.mpr ⟨i, hi, rfl⟩)
    exact List.any_eq_true.mpr ⟨_, hmem, by simp⟩

end

end

/-- A schema without automatic names is created from nothing. Whatever order it is then reported in,
reading the report gives its tables and its indexes, and leaves nothing to plan. -/
theorem readCatalog_created {tables : List Table} {indexes : List Index} {declared : Schema}
    (hb : Schema.build tables indexes = .ok declared) (hauto : ∀ i ∈ indexes, ¬ i.Auto) :
    ∃ plan, reconcile declared {} = .ok plan ∧
      ∀ reports, (({} : LiveSchema).applyAll plan.operations).Reported reports →
        ∀ (x : Exchange) (c : Connection), (x.inspect c.number).1 = .tables reports →
          ∃ live, (Connection.readCatalog.run (x, c)).1 = .ok live ∧
            live.tables.Perm (declared.tables.map fun e => (e.1, e.2.readBack)) ∧
            live.indexes.Perm (declared.indexes.map fun e => (e.1, e.2.readBack tables)) ∧
            reconcile declared live = .ok ⟨[]⟩ := by
  obtain ⟨hc, rfl⟩ := Schema.build_eq_ok_iff.mp hb
  obtain ⟨plan, hr⟩ := reconcile_empty hc
  refine ⟨plan, hr, fun reports hreported x c hx => ?_⟩
  obtain ⟨hcreated, hindexed⟩ := created_of_reconcile_empty hc hr
  obtain ⟨order, hperm, hreports⟩ := hreported
  have horder := hperm.trans hcreated
  rw [hindexed] at hreports
  refine ⟨.ofInspected reports, ?_, ?_, ?_, ?_⟩
  · rw [Connection.run_readCatalog, hx]
  · rw [tables_ofInspected hc horder hreports hauto, Schema.ofDescriptions,
      Keyed.ofList_of_nodup _ _ hc.distinct_tables, List.map_map]
    exact horder.map _
  · rw [Schema.ofDescriptions, Keyed.ofList_of_nodup _ _ hc.distinct_indexes, List.map_map]
    exact indexes_ofInspected hc horder hreports hauto
  · exact reconcile_of_holds (holds_ofInspected hc horder hreports hauto)

namespace Library

def authors : Table :=
  ⟨"Authors", [{ name := "name", kind := .text, primaryKey := true },
    { name := "mentor", kind := .text, references := some ⟨"authors", "NAME"⟩ }]⟩

def books : Table :=
  ⟨"books", [{ name := "id", kind := .integer, primaryKey := true, unique := true },
    { name := "isbn", kind := .text, notNull := true, unique := true },
    { name := "price", kind := .real, fallback := some "0.5" },
    { name := "author", kind := .text, references := some ⟨"Authors", "name"⟩ }]⟩

def byAuthor : Index := .on "BOOKS" ["author", "price"]

def declared : Schema := .ofDescriptions [books, authors] [byAuthor]

def reports : List InspectedTable :=
  [{ name := "books"
     columns := [{ name := "id", type := .integer, keyPosition := 1 },
       { name := "isbn", type := .string, nullable := false },
       { name := "price", type := .float, fallback := some "0.5" },
       { name := "author", type := .string }]
     indexes := [⟨some "BOOKS_author_price", [some "author", some "price"], false⟩,
       ⟨some "sqlite_autoindex_books_1", [some "id"], true⟩,
       ⟨some "sqlite_autoindex_books_2", [some "isbn"], true⟩]
     foreignKeys := [⟨["author"], "Authors", ["name"]⟩] },
   { name := "Authors"
     columns := [{ name := "name", type := .string, keyPosition := 1 },
       { name := "mentor", type := .string }]
     indexes := [⟨some "sqlite_autoindex_Authors_1", [some "name"], true⟩]
     foreignKeys := [⟨["mentor"], "authors", ["NAME"]⟩] }]

def plan : Plan := ⟨[.createTable authors, .createTable books, .createIndex byAuthor]⟩

lemma reported : (({} : LiveSchema).applyAll plan.operations).Reported reports := by
  let auto (name column : String) : InspectedIndex := ⟨some name, [some column], true⟩
  refine ⟨[books, authors], .swap _ _ _, .cons ?_ (.cons ?_ .nil)⟩
  · refine ⟨rfl, .cons ⟨rfl, rfl, rfl, rfl, rfl⟩ (.cons ⟨rfl, rfl, rfl, rfl, rfl⟩
      (.cons ⟨rfl, rfl, rfl, rfl, rfl⟩ (.cons ⟨rfl, rfl, rfl, rfl, rfl⟩ .nil))), .refl _,
      ⟨[auto "sqlite_autoindex_books_1" "id", auto "sqlite_autoindex_books_2" "isbn"],
        @List.perm_append_comm _ [byAuthor.reported] _, ?_, ?_⟩, nofun⟩
    · intro a ha
      rcases List.mem_pair.mp ha with rfl | rfl
      · exact ⟨_, .head _, Or.inl rfl, rfl, rfl, rfl⟩
      · exact ⟨_, .tail _ (.head _), Or.inl rfl, rfl, rfl, rfl⟩
    · intro c hc hunique
      simp only [books, List.mem_cons, List.not_mem_nil, or_false] at hc
      rcases hc with rfl | rfl | rfl | rfl
      · exact ⟨_, .head _, rfl, rfl, rfl⟩
      · exact ⟨_, .tail _ (.head _), rfl, rfl, rfl⟩
      · cases hunique
      · cases hunique
  · refine ⟨rfl, .cons ⟨rfl, rfl, rfl, rfl, rfl⟩ (.cons ⟨rfl, rfl, rfl, rfl, rfl⟩ .nil), .refl _,
      ⟨[auto "sqlite_autoindex_Authors_1" "name"], .refl _, ?_, ?_⟩, nofun⟩
    · intro a ha
      obtain rfl := List.mem_singleton.mp ha
      exact ⟨_, .head _, Or.inr rfl, rfl, rfl, rfl⟩
    · intro c hc hunique
      rcases List.mem_pair.mp hc with rfl | rfl <;> cases hunique

end Library

open Library in
theorem readCatalog_created_library :
    Schema.build [books, authors] [byAuthor] = .ok Library.declared ∧
      reconcile Library.declared {} = .ok Library.plan ∧
      (({} : LiveSchema).applyAll Library.plan.operations).Reported reports ∧
      ∃ live, (Connection.readCatalog.run ({ inspections := [.tables reports] },
          { role := .writer, settings := {}, number := 1, generation := 1 })).1 = .ok live ∧
        live.tables.Perm (Library.declared.tables.map fun e => (e.1, e.2.readBack)) ∧
        live.indexes.Perm
          (Library.declared.indexes.map fun e => (e.1, e.2.readBack [books, authors])) ∧
        reconcile Library.declared live = .ok ⟨[]⟩ := by
  have hb : Schema.build [books, authors] [byAuthor] = .ok Library.declared := by rfl
  have hr : reconcile Library.declared {} = .ok Library.plan := by rfl
  have hauto : ∀ i ∈ [byAuthor], ¬ i.Auto := by
    simp only [List.forall_mem_singleton, Index.Auto]
    decide +kernel
  obtain ⟨plan, hplan, hread⟩ := readCatalog_created hb hauto
  obtain rfl : Library.plan = plan := Except.ok.inj (hr.symm.trans hplan)
  exact ⟨hb, hr, reported, hread reports reported _ _ rfl⟩

end Tablewright
