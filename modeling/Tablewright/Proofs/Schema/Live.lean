import Mathlib.Data.List.Basic
import Mathlib.Data.List.Forall2
import Tablewright.Proofs.Schema.Declared
import Tablewright.Schema.Live
import Tablewright.Statement.Basic

namespace Tablewright

def Table.extend (t : Table) (columns : List Column) : Table :=
  { t with columns := t.columns ++ columns }

lemma Table.extend_column? (t : Table) (columns : List Column) (name : String) :
    (t.extend columns).column? name =
      (t.column? name).or (columns.find? fun c => Text.fold c.name == Text.fold name) :=
  List.find?_append

namespace LiveSchema

def apply (s : LiveSchema) : Ddl → LiveSchema
  | .createTable t => { s with tables := s.tables.put t.name t }
  | .addColumn table c =>
    { s with tables := s.tables.map fun e => if e.1 = table then (e.1, e.2.extend [c]) else e }
  | .createIndex i => { s with indexes := s.indexes.put i.name i }
  | .dropIndex i => { s with indexes := s.indexes.filter fun e => e.1 ≠ i.name }

def applyAll (s : LiveSchema) (changes : List Ddl) : LiveSchema := changes.foldl apply s

@[simp] lemma applyAll_nil (s : LiveSchema) : s.applyAll [] = s := rfl

@[simp] lemma applyAll_cons (s : LiveSchema) (d : Ddl) (rest : List Ddl) :
    s.applyAll (d :: rest) = (s.apply d).applyAll rest := rfl

@[simp] lemma applyAll_append (s : LiveSchema) (changes others : List Ddl) :
    s.applyAll (changes ++ others) = (s.applyAll changes).applyAll others :=
  List.foldl_append

def Named (s : LiveSchema) : Prop := ∀ e ∈ s.tables, e.1 = e.2.name

lemma named_ofDescriptions (tables : List Table) (indexes : List Index) :
    (ofDescriptions tables indexes).Named :=
  Keyed.key_of_mem_ofList _ _

lemma Named.apply {s : LiveSchema} (h : s.Named) (d : Ddl) : (s.apply d).Named := by
  cases d with
  | createTable t =>
    intro e he
    rcases Keyed.mem_put _ _ _ _ he with rfl | he
    · rfl
    · exact h e he
  | addColumn table c =>
    intro e he
    obtain ⟨d, hd, rfl⟩ := List.mem_map.mp he
    split
    · exact h d hd
    · exact h d hd
  | createIndex i => exact h
  | dropIndex i => exact h

lemma Named.applyAll {s : LiveSchema} (h : s.Named) (changes : List Ddl) :
    (s.applyAll changes).Named := by
  induction changes generalizing s with
  | nil => exact h
  | cons d rest ih => exact ih (h.apply d)

lemma findTable?_congr (s : LiveSchema) {name other : String}
    (h : Text.fold name = Text.fold other) : s.findTable? name = s.findTable? other := by
  simp only [findTable?, h]

lemma hasIndex_congr (s : LiveSchema) {name other : String}
    (h : Text.fold name = Text.fold other) : s.hasIndex name = s.hasIndex other := by
  simp only [hasIndex, h]

lemma notMem_keys_of_findTable? {s : LiveSchema} {name : String}
    (h : s.findTable? name = none) : name ∉ s.tables.keys := by
  intro hmem
  obtain ⟨e, he, rfl⟩ := List.mem_map.mp hmem
  have hnone := List.find?_eq_none.mp (Option.map_eq_none_iff.mp h) e he
  simp at hnone

def tableUnder (key : String → String) (s : LiveSchema) (name : String) : Option Table :=
  (s.tables.find? fun e => key e.1 == key name).map (·.2)

section Under

variable {s : LiveSchema} (key : String → String)

lemma tableUnder_name (hs : s.Named) {name : String} {t : Table}
    (h : s.tableUnder key name = some t) : key t.name = key name := by
  obtain ⟨e, he, rfl⟩ := Option.map_eq_some_iff.mp h
  rw [← hs e (List.mem_of_find?_eq_some he)]
  simpa using List.find?_some he

lemma tableUnder_createTable {t : Table} (h : s.findTable? t.name = none) (name : String) :
    (s.apply (.createTable t)).tableUnder key name =
      (s.tableUnder key name).or (if key t.name = key name then some t else none) := by
  simp only [apply, tableUnder, Keyed.put_of_notMem _ _ _ (notMem_keys_of_findTable? h),
    List.find?_append, List.find?_singleton, beq_iff_eq]
  cases s.tables.find? fun e => key e.1 == key name with
  | none => by_cases hn : key t.name = key name <;> simp [hn]
  | some e => simp

lemma find?_map_extend (table : String) (c : Column) (name : String) (entries : Keyed Table)
    (h : ∀ e ∈ entries, e.1 = e.2.name) :
    ((entries.map fun e => if e.1 = table then (e.1, e.2.extend [c]) else e).find?
        fun e => key e.1 == key name).map (·.2) =
      ((entries.find? fun e => key e.1 == key name).map (·.2)).map
        fun t => if t.name = table then t.extend [c] else t := by
  induction entries with
  | nil => rfl
  | cons e rest ih =>
    have he : e.1 = e.2.name := h e List.mem_cons_self
    have hrest := ih fun d hd => h d (List.mem_cons_of_mem _ hd)
    by_cases ht : e.1 = table <;> by_cases hn : key e.1 = key name
    · simp [← he, ht, ht ▸ hn]
    · simpa [ht, ht ▸ hn] using hrest
    · simp [← he, ht, hn]
    · simpa [ht, hn] using hrest

lemma tableUnder_addColumn (hs : s.Named) (table : String) (c : Column) (name : String) :
    (s.apply (.addColumn table c)).tableUnder key name =
      (s.tableUnder key name).map fun t => if t.name = table then t.extend [c] else t :=
  find?_map_extend key table c name s.tables hs

end Under

lemma findTable?_name {s : LiveSchema} (hs : s.Named) {name : String} {t : Table}
    (h : s.findTable? name = some t) : Text.fold t.name = Text.fold name :=
  tableUnder_name Text.fold hs h

lemma findTable?_createTable {s : LiveSchema} {t : Table} (h : s.findTable? t.name = none)
    (name : String) :
    (s.apply (.createTable t)).findTable? name =
      (s.findTable? name).or (if Text.fold t.name = Text.fold name then some t else none) :=
  tableUnder_createTable Text.fold h name

lemma findTable?_addColumn {s : LiveSchema} (hs : s.Named) (table : String) (c : Column)
    (name : String) :
    (s.apply (.addColumn table c)).findTable? name =
      (s.findTable? name).map fun t => if t.name = table then t.extend [c] else t :=
  tableUnder_addColumn Text.fold hs table c name

lemma notMem_keys_of_hasIndex {s : LiveSchema} {name : String} (h : s.hasIndex name = false) :
    name ∉ s.indexes.keys := by
  intro hmem
  obtain ⟨e, he, rfl⟩ := List.mem_map.mp hmem
  have hnone := List.any_eq_false.mp h e he
  simp at hnone

lemma hasIndex_createIndex {s : LiveSchema} {i : Index} (h : s.hasIndex i.name = false)
    (name : String) :
    (s.apply (.createIndex i)).hasIndex name =
      (s.hasIndex name || Text.fold i.name == Text.fold name) := by
  simp [apply, hasIndex, Keyed.put_of_notMem _ _ _ (notMem_keys_of_hasIndex h)]

/-- Whether a change can be made: what it creates is new, and what it refers to is there. Nothing
is ready to lose an index. -/
def Admits (s : LiveSchema) : Ddl → Prop
  | .createTable t => s.findTable? t.name = none ∧
      ∀ name ∈ t.referenced, Text.fold name = Text.fold t.name ∨ (s.findTable? name).isSome
  | .addColumn table c => ∃ t, s.findTable? table = some t ∧ t.name = table ∧
      t.column? c.name = none ∧ ∀ r, c.references = some r → (s.findTable? r.table).isSome
  | .createIndex i => s.hasIndex i.name = false ∧
      ∃ t, s.findTable? i.table = some t ∧ ∀ c ∈ i.columns, (t.column? c).isSome
  | .dropIndex _ => False

def Runs (s : LiveSchema) : List Ddl → Prop
  | [] => True
  | d :: rest => s.Admits d ∧ (s.apply d).Runs rest

lemma runs_append {s : LiveSchema} {changes others : List Ddl} :
    s.Runs (changes ++ others) ↔ s.Runs changes ∧ (s.applyAll changes).Runs others := by
  induction changes generalizing s with
  | nil => simp [Runs]
  | cons d rest ih => simp only [List.cons_append, Runs, ih, applyAll_cons, and_assoc]

lemma Runs.admits {s : LiveSchema} {changes : List Ddl} (h : s.Runs changes) (i : Nat) (d : Ddl)
    (hd : changes[i]? = some d) : (s.applyAll (changes.take i)).Admits d := by
  induction changes generalizing s i with
  | nil => simp at hd
  | cons e rest ih =>
    cases i with
    | zero =>
      obtain rfl : e = d := by simpa using hd
      exact h.1
    | succ i => exact ih h.2 i (by simpa using hd)

structure Grown (e e' : String × Table) : Prop where
  key : e'.1 = e.1
  name : e'.2.name = e.2.name
  columns : e.2.columns <+: e'.2.columns

lemma Grown.refl (e : String × Table) : Grown e e := ⟨rfl, rfl, List.prefix_rfl⟩

lemma Grown.trans {a b c : String × Table} (h : Grown a b) (h' : Grown b c) : Grown a c :=
  ⟨h'.key.trans h.key, h'.name.trans h.name, h.columns.trans h'.columns⟩

/-- Every table is still at its place, at most with more columns at its end, and every index is
still there. -/
structure Extends (s s' : LiveSchema) : Prop where
  tables : ∀ (n : Nat) (e : String × Table), s.tables[n]? = some e →
    ∃ e', s'.tables[n]? = some e' ∧ Grown e e'
  indexes : s.indexes <+: s'.indexes

lemma Extends.refl (s : LiveSchema) : s.Extends s :=
  ⟨fun _ e he => ⟨e, he, .refl e⟩, List.prefix_rfl⟩

lemma Extends.trans {a b c : LiveSchema} (h : a.Extends b) (h' : b.Extends c) : a.Extends c := by
  refine ⟨fun n e he => ?_, h.indexes.trans h'.indexes⟩
  obtain ⟨e', he', hg⟩ := h.tables n e he
  obtain ⟨e'', he'', hg'⟩ := h'.tables n e' he'
  exact ⟨e'', he'', hg.trans hg'⟩

lemma Admits.extends_apply {s : LiveSchema} {d : Ddl} (h : s.Admits d) : s.Extends (s.apply d) := by
  cases d with
  | createTable t =>
    refine ⟨fun n e he => ⟨e, ?_, .refl e⟩, List.prefix_rfl⟩
    simp only [apply, Keyed.put_of_notMem _ _ _ (notMem_keys_of_findTable? h.1)]
    rw [List.getElem?_append_left (List.getElem?_eq_some_iff.mp he).1, he]
  | addColumn table c =>
    refine ⟨fun n e he => ?_, List.prefix_rfl⟩
    refine ⟨if e.1 = table then (e.1, e.2.extend [c]) else e, by simp [apply, he], ?_⟩
    split
    · exact ⟨rfl, rfl, List.prefix_append _ _⟩
    · exact .refl e
  | createIndex i =>
    refine ⟨fun n e he => ⟨e, he, .refl e⟩, ?_⟩
    simp only [apply, Keyed.put_of_notMem _ _ _ (notMem_keys_of_hasIndex h.1)]
    exact List.prefix_append _ _
  | dropIndex i => exact h.elim

lemma Runs.extends_applyAll {s : LiveSchema} {changes : List Ddl} (h : s.Runs changes) :
    s.Extends (s.applyAll changes) := by
  induction changes generalizing s with
  | nil => exact .refl s
  | cons d rest ih => exact h.1.extends_apply.trans (ih h.2)

structure Holds (s : LiveSchema) (declared : Schema) : Prop where
  tables : ∀ t ∈ declared.tables.values, ∃ found, s.findTable? t.name = some found ∧
    ∀ c ∈ t.columns, (found.column? c.name).isSome
  indexes : ∀ i ∈ declared.indexes.values, s.hasIndex i.name = true

end LiveSchema

end Tablewright
