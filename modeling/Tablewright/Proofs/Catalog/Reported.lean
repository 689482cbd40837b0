import Mathlib.Data.List.Forall2
import Mathlib.Data.List.Nodup
import Mathlib.Tactic.Lemma
import Tablewright.Catalog.Inspection
import Tablewright.Proofs.Schema.Declared

namespace Tablewright

def Kind.sqlType : Kind → SqlType
  | .text => .string
  | .integer => .integer
  | .real => .float
  | .blob => .binary

@[simp] lemma Kind.kind_sqlType (k : Kind) : k.sqlType.kind = k := by
  cases k <;> rfl

namespace Column

def Distinct (c : Column) : Prop := c.unique = true ∨ c.primaryKey = true

def reportedKey? (c : Column) : Option InspectedKey :=
  c.references.map fun f => ⟨[c.name], f.table, [f.column]⟩

/-- A column as it is read: that a key is unique goes without saying. -/
def readBack (c : Column) : Column := { c with unique := c.unique && !c.primaryKey }

end Column

def Table.readBack (t : Table) : Table := ⟨t.name, t.columns.map (·.readBack)⟩

namespace Index

def Auto (i : Index) : Prop := InspectedIndex.autoStart.toList <+: i.name.toList

def isOn (t : Table) (i : Index) : Bool := Text.fold i.table == Text.fold t.name

def reported (i : Index) : InspectedIndex := ⟨some i.name, i.columns.map some, i.unique⟩

end Index

structure InspectedColumn.Reports (c : Column) (r : InspectedColumn) : Prop where
  name : r.name = c.name
  type : r.type = c.kind.sqlType
  nullable : r.nullable = !c.notNull
  key : (r.keyPosition != 0) = c.primaryKey
  fallback : r.fallback = c.fallback

structure InspectedIndex.Keeps (c : Column) (i : InspectedIndex) : Prop where
  auto : i.isAuto = true
  unique : i.unique = true
  columns : i.columns = [some c.name]

/-- What is reported of a table, with those among the indexes that are on it. Keys and indexes come
in any order; a uniqueness constraint may be reported or not. -/
structure InspectedTable.Reports (indexes : List Index) (t : Table) (r : InspectedTable) : Prop where
  name : r.name = t.name
  columns : List.Forall₂ InspectedColumn.Reports t.columns r.columns
  foreignKeys : r.foreignKeys.Perm (t.columns.filterMap (·.reportedKey?))
  indexes : ∃ autos, r.indexes.Perm (autos ++ (indexes.filter (·.isOn t)).map (·.reported)) ∧
    (∀ a ∈ autos, ∃ c ∈ t.columns, c.Distinct ∧ a.Keeps c) ∧
    ∀ c ∈ t.columns, c.unique = true → ∃ a ∈ autos, a.Keeps c
  uniques : ∀ name, [name] ∈ r.uniques → ∃ c ∈ t.columns, c.Distinct ∧ c.name = name

namespace InspectedIndex

lemma Keeps.uniqueColumn? {c : Column} {i : InspectedIndex} (h : i.Keeps c) :
    i.uniqueColumn? = some c.name := by
  simp [InspectedIndex.uniqueColumn?, h.columns, h.auto, h.unique]

lemma Keeps.describe? {c : Column} {i : InspectedIndex} (h : i.Keeps c) (table : String) :
    i.describe? table = none := by
  rw [InspectedIndex.describe?]
  cases hname : i.name with
  | none => rfl
  | some name => simp [h.auto]

lemma isAuto_reported {i : Index} (h : ¬ i.Auto) : i.reported.isAuto = false := by
  exact Bool.eq_false_iff.mpr fun hauto => h (List.isPrefixOf_iff_prefix.mp hauto)

lemma uniqueColumn?_reported {i : Index} (h : ¬ i.Auto) : i.reported.uniqueColumn? = none := by
  rw [uniqueColumn?]
  split
  · rw [isAuto_reported h]
    rfl
  · rfl

lemma describe?_reported {i : Index} (h : ¬ i.Auto) (hne : i.columns ≠ []) (table : String) :
    i.reported.describe? table = some { i with table } := by
  have hcolumns : i.reported.columns.filterMap id = i.columns := by
    simp [Index.reported, List.filterMap_map]
  have hname : i.reported.name = some i.name := rfl
  simp only [describe?, hname, hcolumns, isAuto_reported h, List.isEmpty_iff, hne, Bool.false_or]
  rfl

end InspectedIndex

lemma map_eq_of_forall₂ {α β γ : Type} {R : α → β → Prop} {f : α → γ} {g : β → γ} {as : List α}
    {bs : List β} (h : List.Forall₂ R as bs) (hfg : ∀ a ∈ as, ∀ b, R a b → g b = f a) :
    bs.map g = as.map f := by
  induction h with
  | nil => rfl
  | cons hab _ ih =>
    obtain ⟨hhead, hrest⟩ := List.forall_mem_cons.mp hfg
    rw [List.map_cons, List.map_cons, hhead _ hab, ih hrest]

lemma filterMap_named {α : Type} (f : Column → Option α) {columns : List Column} {c : Column}
    (hn : (columns.map (·.name)).Nodup) (hc : c ∈ columns) :
    (columns.filterMap fun d => if d.name = c.name then f d else none) = (f c).toList := by
  induction columns with
  | nil => cases hc
  | cons d rest ih =>
    obtain ⟨hnew, hrest⟩ := List.nodup_cons.mp hn
    rcases List.mem_cons.mp hc with rfl | hc
    · have hnone : (rest.filterMap fun d => if d.name = c.name then f d else none) = [] := by
        refine List.filterMap_eq_nil_iff.mpr fun d hd => if_neg fun hname => hnew ?_
        exact List.mem_map.mpr ⟨d, hd, hname⟩
      rw [List.filterMap_cons, hnone, if_pos rfl]
      cases f c <;> rfl
    · have hne : d.name ≠ c.name := fun hname => hnew (List.mem_map.mpr ⟨c, hc, hname.symm⟩)
      rw [List.filterMap_cons, if_neg hne, ih hrest hc]

lemma head?_of_perm_toList {α : Type} {l : List α} {o : Option α} (h : l.Perm o.toList) :
    l.head? = o := by
  cases o with
  | none => rw [List.perm_nil.mp h, List.head?_nil]
  | some a => rw [List.perm_singleton.mp h, List.head?_cons]

lemma Column.Distinct.unique {columns : List Column} {c d : Column}
    (hn : (columns.map (·.name)).Nodup) (hc : c ∈ columns) (hd : d ∈ columns)
    (hname : d.name = c.name) (h : d.Distinct) (hkey : c.primaryKey = false) :
    c.unique = true := by
  obtain rfl : d = c := List.inj_on_of_nodup_map hn hd hc hname
  exact h.resolve_right (by simp [hkey])

namespace InspectedTable.Reports

variable {indexes : List Index} {t : Table} {r : InspectedTable}

lemma describe?_of_mem_autos {autos : List InspectedIndex}
    (honly : ∀ a ∈ autos, ∃ c ∈ t.columns, c.Distinct ∧ a.Keeps c) (table : String) :
    autos.filterMap (·.describe? table) = [] := by
  refine List.filterMap_eq_nil_iff.mpr fun a ha => ?_
  obtain ⟨c, -, -, hkeeps⟩ := honly a ha
  exact hkeeps.describe? table

lemma describeIndexes (h : r.Reports indexes t) (hauto : ∀ i ∈ indexes, ¬ i.Auto)
    (hne : ∀ i ∈ indexes, i.columns ≠ []) :
    r.describeIndexes.Perm
      ((indexes.filter (·.isOn t)).map fun i => { i with table := t.name }) := by
  obtain ⟨autos, hperm, honly, -⟩ := h.indexes
  refine (hperm.filterMap _).trans (List.Perm.of_eq ?_)
  rw [List.filterMap_append, describe?_of_mem_autos honly, List.nil_append, List.filterMap_map,
    ← List.filterMap_eq_map, h.name]
  refine List.filterMap_congr fun i hi => ?_
  have hmem := (List.mem_filter.mp hi).1
  exact InspectedIndex.describe?_reported (hauto i hmem) (hne i hmem) t.name

section

variable (h : r.Reports indexes t) (hn : (t.columns.map (·.name)).Nodup)

include h hn

lemma reference? {c : Column} (hc : c ∈ t.columns) : r.reference? c.name = c.references := by
  refine head?_of_perm_toList (((r.foreignKeys.reverse_perm.trans h.foreignKeys).filterMap _).trans
    (List.Perm.of_eq ?_))
  rw [List.filterMap_filterMap, ← filterMap_named (·.references) hn hc]
  refine List.filterMap_congr fun d _ => ?_
  rw [Column.reportedKey?]
  cases d.references with
  | none => simp
  | some f => rfl

variable (hauto : ∀ i ∈ indexes, ¬ i.Auto)

include hauto

lemma mem_uniqueColumns {c : Column} (hc : c ∈ t.columns) (hkey : c.primaryKey = false) :
    c.name ∈ r.uniqueColumns ↔ c.unique = true := by
  obtain ⟨autos, hperm, honly, hall⟩ := h.indexes
  rw [uniqueColumns, List.mem_append, List.mem_filterMap, List.mem_filterMap]
  constructor
  · rintro (⟨columns, hcolumns, hname⟩ | ⟨i, hi, hname⟩)
    · obtain rfl : columns = [c.name] := by
        split at hname
        · rw [Option.some.inj hname]
        · cases hname
      obtain ⟨d, hd, hdistinct, hsame⟩ := h.uniques _ hcolumns
      exact hdistinct.unique hn hc hd hsame hkey
    · rcases List.mem_append.mp (hperm.mem_iff.mp hi) with ha | hi
      · obtain ⟨d, hd, hdistinct, hkeeps⟩ := honly i ha
        rw [hkeeps.uniqueColumn?] at hname
        exact hdistinct.unique hn hc hd (Option.some.inj hname) hkey
      · -- an index that was declared is not taken for a constraint
        obtain ⟨j, hj, rfl⟩ := List.mem_map.mp hi
        rw [InspectedIndex.uniqueColumn?_reported (hauto j (List.mem_filter.mp hj).1)] at hname
        cases hname
  · intro hunique
    obtain ⟨a, ha, hkeeps⟩ := hall c hc hunique
    exact Or.inr ⟨a, hperm.mem_iff.mpr (List.mem_append_left _ ha), hkeeps.uniqueColumn?⟩

lemma describeColumn {c : Column} {rc : InspectedColumn} (hc : c ∈ t.columns)
    (hrc : rc.Reports c) : r.describeColumn rc = c.readBack := by
  have hreference := h.reference? hn hc
  have hunique : (r.uniqueColumns.contains c.name && !c.primaryKey) =
      (c.unique && !c.primaryKey) := by
    cases hkey : c.primaryKey with
    | true => rw [Bool.not_true, Bool.and_false, Bool.and_false]
    | false =>
      rw [Bool.not_false, Bool.and_true, Bool.and_true, Bool.eq_iff_iff, List.contains_iff_mem]
      exact h.mem_uniqueColumns hn hauto hc hkey
  simp only [InspectedTable.describeColumn, hrc.name, hrc.type, hrc.nullable, hrc.key,
    hrc.fallback, hreference, hunique, Kind.kind_sqlType, Bool.not_not]
  rfl

lemma describe : r.describe = t.readBack := by
  have hcolumns := map_eq_of_forall₂ h.columns fun c hc _ => h.describeColumn hn hauto hc
  rw [InspectedTable.describe, Table.readBack, h.name, hcolumns]

end

end InspectedTable.Reports

end Tablewright
