import Tablewright.Proofs.Migration.Execution
import Tablewright.Proofs.Migration.Known

/-! Tables and indexes share one namespace in the engine. A plan keeps them apart exactly as far as
the declared and the live names do: nothing checks a table's name against an index's. -/

namespace Tablewright

namespace LiveSchema

def Free (s : LiveSchema) (name : String) : Prop :=
  s.findTable? name = none ∧ s.hasIndex name = false

def Unclaimed (s : LiveSchema) : Ddl → Prop
  | .createTable t => s.Free t.name
  | .createIndex i => s.Free i.name
  | .addColumn _ _ => True
  | .dropIndex _ => True

def Apart (s : LiveSchema) : Prop :=
  ∀ name, (s.findTable? name).isSome → s.hasIndex name = false

section

variable {s : LiveSchema} {d : Ddl} {changes : List Ddl}

lemma isSome_createTable {t : Table} (h : s.findTable? t.name = none) (name : String) :
    ((s.apply (.createTable t)).findTable? name).isSome ↔
      (s.findTable? name).isSome ∨ Text.fold t.name = Text.fold name := by
  rw [findTable?_createTable h, Option.isSome_or, Bool.or_eq_true]
  by_cases hn : Text.fold t.name = Text.fold name <;> simp [hn]

lemma apart_apply_iff (hn : s.Named) (ha : s.Apart) (h : s.Admits d) :
    (s.apply d).Apart ↔ s.Unclaimed d := by
  cases d with
  | createTable t =>
    have hindexes : ∀ name, (s.apply (.createTable t)).hasIndex name = s.hasIndex name :=
      fun _ => rfl
    simp only [Apart, isSome_createTable h.1, hindexes]
    constructor
    · intro hapart
      exact ⟨h.1, hapart t.name (Or.inr rfl)⟩
    · rintro ⟨-, hfree⟩ name (hlive | hnew)
      · exact ha name hlive
      · rw [← hasIndex_congr s hnew, hfree]
  | addColumn table c =>
    have hindexes : ∀ name, (s.apply (.addColumn table c)).hasIndex name = s.hasIndex name :=
      fun _ => rfl
    simp only [Apart, findTable?_addColumn hn, Option.isSome_map, hindexes]
    exact iff_of_true ha trivial
  | createIndex i =>
    have htables : ∀ name, (s.apply (.createIndex i)).findTable? name = s.findTable? name :=
      fun _ => rfl
    simp only [Apart, htables, hasIndex_createIndex h.1, Bool.or_eq_false_iff, beq_eq_false_iff_ne]
    constructor
    · intro hapart
      refine ⟨Option.eq_none_iff_forall_ne_some.mpr fun t ht => ?_, h.1⟩
      exact (hapart i.name (by simp [ht])).2 rfl
    · rintro ⟨hfree, -⟩ name hlive
      refine ⟨ha name hlive, fun hsame => ?_⟩
      rw [← findTable?_congr s hsame, hfree] at hlive
      cases hlive
  | dropIndex i => exact h.elim

lemma Admits.apart (hn : s.Named) (h : s.Admits d) (ha : (s.apply d).Apart) : s.Apart := by
  intro name hlive
  cases d with
  | createTable t => exact ha name ((isSome_createTable h.1 name).mpr (Or.inl hlive))
  | addColumn table c =>
    refine ha name ?_
    rw [findTable?_addColumn hn, Option.isSome_map, hlive]
  | createIndex i =>
    have hfree := ha name hlive
    rw [hasIndex_createIndex h.1, Bool.or_eq_false_iff] at hfree
    exact hfree.1
  | dropIndex i => exact h.elim

lemma Runs.apart (hn : s.Named) (h : s.Runs changes) (ha : (s.applyAll changes).Apart) :
    s.Apart := by
  induction changes generalizing s with
  | nil => exact ha
  | cons d rest ih => exact h.1.apart hn (ih (hn.apply d) h.2 ha)

def AllUnclaimed (s : LiveSchema) (changes : List Ddl) : Prop :=
  ∀ (n : Nat) (d : Ddl), changes[n]? = some d → (s.applyAll (changes.take n)).Unclaimed d

lemma allUnclaimed_cons {rest : List Ddl} :
    s.AllUnclaimed (d :: rest) ↔ s.Unclaimed d ∧ (s.apply d).AllUnclaimed rest := by
  constructor
  · intro h
    exact ⟨h 0 d rfl, fun n e he => h (n + 1) e he⟩
  · rintro ⟨hd, hrest⟩ n e he
    cases n with
    | zero =>
      obtain rfl : d = e := Option.some.inj he
      exact hd
    | succ n => exact hrest n e he

lemma allUnclaimed_iff_apart (hn : s.Named) (ha : s.Apart) (h : s.Runs changes) :
    s.AllUnclaimed changes ↔ (s.applyAll changes).Apart := by
  induction changes generalizing s with
  | nil => exact iff_of_true nofun ha
  | cons d rest ih =>
    rw [allUnclaimed_cons, ← apart_apply_iff hn ha h.1, applyAll_cons]
    constructor
    · rintro ⟨hapart, hrest⟩
      exact (ih (hn.apply d) hapart h.2).mp hrest
    · intro hend
      have hapart := h.2.apart (hn.apply d) hend
      exact ⟨hapart, (ih (hn.apply d) hapart h.2).mpr hend⟩

end

lemma findTable?_isSome_ofDescriptions (tables : List Table) (indexes : List Index)
    (name : String) :
    ((ofDescriptions tables indexes).findTable? name).isSome ↔
      ∃ t ∈ tables, Text.fold t.name = Text.fold name := by
  have hkeys : ((ofDescriptions tables indexes).findTable? name).isSome ↔
      ∃ k ∈ (Keyed.ofList (·.name) tables).keys, Text.fold k = Text.fold name := by
    simp [findTable?, ofDescriptions, Keyed.keys, List.find?_isSome]
  simp [hkeys, Keyed.mem_keys_ofList]

lemma hasIndex_ofDescriptions (tables : List Table) (indexes : List Index) (name : String) :
    (ofDescriptions tables indexes).hasIndex name = true ↔
      ∃ i ∈ indexes, Text.fold i.name = Text.fold name := by
  have hkeys : (ofDescriptions tables indexes).hasIndex name = true ↔
      ∃ k ∈ (Keyed.ofList (·.name) indexes).keys, Text.fold k = Text.fold name := by
    simp [hasIndex, ofDescriptions, Keyed.keys]
  simp [hkeys, Keyed.mem_keys_ofList]

lemma apart_iff {s : LiveSchema} {tables : List Table} {indexes : List Index}
    (htable : ∀ name, (s.findTable? name).isSome ↔
      ∃ t ∈ tables, Text.fold t.name = Text.fold name)
    (hindex : ∀ name, s.hasIndex name = true ↔
      ∃ i ∈ indexes, Text.fold i.name = Text.fold name) :
    s.Apart ↔ ∀ t ∈ tables, ∀ i ∈ indexes, Text.fold t.name ≠ Text.fold i.name := by
  constructor
  · intro ha t ht i hi hsame
    have hfree := ha t.name ((htable t.name).mpr ⟨t, ht, rfl⟩)
    rw [(hindex t.name).mpr ⟨i, hi, hsame.symm⟩] at hfree
    cases hfree
  · intro hdistinct name hfound
    obtain ⟨t, ht, htname⟩ := (htable name).mp hfound
    refine Bool.eq_false_iff.mpr fun hhas => ?_
    obtain ⟨i, hi, hiname⟩ := (hindex name).mp hhas
    exact hdistinct t ht i hi (htname.trans hiname.symm)

lemma apart_ofDescriptions_iff (tables : List Table) (indexes : List Index) :
    (ofDescriptions tables indexes).Apart ↔
      ∀ t ∈ tables, ∀ i ∈ indexes, Text.fold t.name ≠ Text.fold i.name :=
  apart_iff (findTable?_isSome_ofDescriptions tables indexes)
    (hasIndex_ofDescriptions tables indexes)

end LiveSchema

open LiveSchema

section

variable {tables : List Table} {indexes : List Index} {declared : Schema} {live : LiveSchema}
  {plan : Plan}

lemma findTable?_isSome_of_reconcile (hb : Schema.build tables indexes = .ok declared)
    (hn : live.Named) (hr : reconcile declared live = .ok plan) (name : String) :
    ((live.applyAll plan.operations).findTable? name).isSome ↔
      (live.findTable? name).isSome ∨ ∃ t ∈ tables, Text.fold t.name = Text.fold name := by
  obtain ⟨hc, rfl⟩ := Schema.build_eq_ok_iff.mp hb
  obtain ⟨hl, hops⟩ := reconcile_eq_ok hr
  rw [hops, applyAll_append, applyAll_append, findTable?_indexings,
    findTable?_additions (hn.applyAll _), findTable?_creations (runs_creationOrder hc hl),
    Option.isSome_map, Option.isSome_or, Bool.or_eq_true, List.find?_isSome]
  constructor
  · rintro (hlive | ⟨t, ht, hname⟩)
    · exact Or.inl hlive
    · exact Or.inr ⟨t, ((mem_creationOrder hc hl).mp ht).1, by simpa using hname⟩
  · rintro (hlive | ⟨t, ht, hname⟩)
    · exact Or.inl hlive
    · cases hf : live.findTable? t.name with
      | none => exact Or.inr ⟨t, (mem_creationOrder hc hl).mpr ⟨ht, hf⟩, by simpa using hname⟩
      | some existing => exact Or.inl (by rw [← findTable?_congr live hname, hf]; rfl)

lemma hasIndex_of_reconcile (hb : Schema.build tables indexes = .ok declared)
    (hn : live.Named) (hr : reconcile declared live = .ok plan) (name : String) :
    (live.applyAll plan.operations).hasIndex name = true ↔
      live.hasIndex name = true ∨ ∃ i ∈ indexes, Text.fold i.name = Text.fold name := by
  obtain ⟨hc, hdeclared⟩ := Schema.build_eq_ok_iff.mp hb
  have hvalues : declared.indexes.values = indexes := hdeclared ▸ hc.values_indexes
  constructor
  · intro h
    obtain ⟨e, he, hname⟩ := List.any_eq_true.mp h
    rw [indexes_of_reconcile hb hn hr, List.mem_append] at he
    rcases he with he | he
    · exact Or.inl (List.any_eq_true.mpr ⟨e, he, hname⟩)
    · obtain ⟨i, hi, rfl⟩ := List.mem_map.mp he
      exact Or.inr ⟨i, hvalues ▸ (List.mem_filter.mp hi).1, by simpa using hname⟩
  · rintro (hlive | ⟨i, hi, hname⟩)
    · obtain ⟨e, he, hsame⟩ := List.any_eq_true.mp hlive
      refine List.any_eq_true.mpr ⟨e, ?_, hsame⟩
      rw [indexes_of_reconcile hb hn hr]
      exact List.mem_append_left _ he
    · rw [← hasIndex_congr _ hname]
      exact (holds_of_reconcile hb hn hr).indexes i (hvalues.symm ▸ hi)

end

/-- A plan takes no name that a table or an index has if and only if no table, declared or live, and
no index, declared or live, fold to the same name. -/
theorem reconcile_unclaimed_iff {tables liveTables : List Table} {indexes liveIndexes : List Index}
    {declared : Schema} {plan : Plan} (hb : Schema.build tables indexes = .ok declared)
    (ha : (LiveSchema.ofDescriptions liveTables liveIndexes).Apart)
    (hr : reconcile declared (.ofDescriptions liveTables liveIndexes) = .ok plan) :
    (LiveSchema.ofDescriptions liveTables liveIndexes).AllUnclaimed plan.operations ↔
      ∀ t ∈ tables ++ liveTables, ∀ i ∈ indexes ++ liveIndexes,
        Text.fold t.name ≠ Text.fold i.name := by
  have hn := named_ofDescriptions liveTables liveIndexes
  rw [allUnclaimed_iff_apart hn ha (runs_of_reconcile hb hn hr)]
  refine apart_iff (fun name => ?_) fun name => ?_
  · rw [findTable?_isSome_of_reconcile hb hn hr, findTable?_isSome_ofDescriptions]
    simp [or_and_right, exists_or, or_comm]
  · rw [hasIndex_of_reconcile hb hn hr, hasIndex_ofDescriptions]
    simp [or_and_right, exists_or, or_comm]

open Journal in
theorem reconcile_unclaimed_iff_journal :
    Schema.build [posts, authors] [byAuthor] = .ok Journal.declared ∧
      (LiveSchema.ofDescriptions livePosts [.on "posts" ["ID"]]).Apart ∧
      reconcile Journal.declared (.ofDescriptions livePosts [.on "posts" ["ID"]]) =
        .ok Journal.plan ∧
      (LiveSchema.ofDescriptions livePosts [.on "posts" ["ID"]]).AllUnclaimed
        Journal.plan.operations := by
  have hb : Schema.build [posts, authors] [byAuthor] = .ok Journal.declared := by rfl
  have hr : reconcile Journal.declared (.ofDescriptions livePosts [.on "posts" ["ID"]]) =
      .ok Journal.plan := by rfl
  have ha : (LiveSchema.ofDescriptions livePosts [.on "posts" ["ID"]]).Apart :=
    (apart_ofDescriptions_iff _ _).mpr (by decide +kernel)
  exact ⟨hb, ha, hr, (reconcile_unclaimed_iff hb ha hr).mpr (by decide +kernel)⟩

namespace Tagged

def note : Table :=
  ⟨"note", [{ name := "id", kind := .integer, primaryKey := true }, { name := "tag", kind := .text }]⟩

def noteTag : Table := ⟨"note_tag", [{ name := "id", kind := .integer, primaryKey := true }]⟩

def byTag : Index := .on "note" ["tag"]

def declared : Schema := .ofDescriptions [note, noteTag] [byTag]

def plan : Plan := ⟨[.createTable note, .createTable noteTag, .createIndex byTag]⟩

end Tagged

open Tagged in
/-- An accepted schema whose plan creates an index under the name of a table it has just created. -/
theorem reconcile_claims_table_name :
    Schema.build [note, noteTag] [byTag] = .ok Tagged.declared ∧
      (LiveSchema.ofDescriptions [] []).Apart ∧
      reconcile Tagged.declared (.ofDescriptions [] []) = .ok Tagged.plan ∧
      ¬ (LiveSchema.ofDescriptions [] []).AllUnclaimed Tagged.plan.operations := by
  refine ⟨by rfl, fun _ _ => rfl, by rfl, fun h => ?_⟩
  have hfree : (LiveSchema.ofDescriptions [] [] |>.applyAll [.createTable note,
      .createTable noteTag]).findTable? "note_tag" = none := (h 2 (.createIndex byTag) rfl).1
  have hfound : (LiveSchema.ofDescriptions [] [] |>.applyAll [.createTable note,
      .createTable noteTag]).findTable? "note_tag" = some noteTag := by rfl
  rw [hfound] at hfree
  cases hfree

end Tablewright
