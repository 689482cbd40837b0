import Mathlib.Data.List.Nodup
import Tablewright.Proofs.Migration.Reconcile

namespace Tablewright

open LiveSchema

section Names

variable {es ts : List String}

lemma append_absent_eq_iff (hts : ts.Nodup) :
    es ++ ts.filter (· ∉ es) = ts ↔ es <+: ts := by
  constructor
  · exact fun h => ⟨_, h⟩
  · rintro ⟨rest, rfl⟩
    have hapart := List.disjoint_of_nodup_append hts
    have hnone : es.filter (· ∉ es) = [] :=
      List.filter_eq_nil_iff.mpr fun n hn => by simpa using hn
    have hall : rest.filter (· ∉ es) = rest :=
      List.filter_eq_self.mpr fun n hn => by simpa using fun h => hapart h hn
    rw [List.filter_append, hnone, hall, List.nil_append]

lemma append_absent_perm_iff (hts : ts.Nodup) :
    (es ++ ts.filter (· ∉ es)).Perm ts ↔ es.Nodup ∧ es ⊆ ts := by
  constructor
  · intro h
    exact ⟨(h.nodup_iff.mpr hts).of_append_left, fun n hn => h.subset (List.mem_append_left _ hn)⟩
  · rintro ⟨hes, hsub⟩
    have hapart : es.Disjoint (ts.filter (· ∉ es)) := fun n hn hn' => by
      simpa [hn] using (List.mem_filter.mp hn').2
    refine (List.perm_ext_iff_of_nodup (hes.append (hts.filter _) hapart) hts).mpr fun n => ?_
    by_cases hn : n ∈ es
    · simp [hn, hsub hn]
    · simp [hn]

end Names

lemma Table.foldedNames_extend_lacking (existing t : Table) :
    (existing.extend (lacking existing t.columns)).foldedNames =
      existing.foldedNames ++ t.foldedNames.filter (· ∉ existing.foldedNames) := by
  have hlacking : lacking existing t.columns =
      t.columns.filter fun c => decide (Text.fold c.name ∉ existing.foldedNames) := by
    refine List.filter_congr fun c _ => ?_
    rw [Bool.eq_iff_iff, decide_eq_true_iff, mem_foldedNames_iff, Option.isNone_iff_eq_none,
      Option.not_isSome_iff_eq_none]
  rw [hlacking]
  simp only [extend, foldedNames, columnNames, List.map_append, List.filter_map, List.map_map]
  rfl

section Found

variable {tables : List Table} {indexes : List Index} {live : LiveSchema} {t existing : Table}

lemma addedTo_of_other (hn : live.Named)
    (h : ∀ u ∈ tables, Text.fold u.name ≠ Text.fold existing.name) :
    addedTo existing (missingColumns live tables) = [] := by
  refine List.eq_nil_iff_forall_not_mem.mpr fun c hc => ?_
  obtain ⟨u, hu, other, hother, hname, -⟩ := mem_missingColumns.mp (mem_addedTo.mp hc)
  exact h u hu ((findTable?_name hn hother).symm.trans (congrArg Text.fold hname))

lemma addedTo_missingColumns (hn : live.Named) (hnames : DistinctNames tables) (ht : t ∈ tables)
    (hlive : live.findTable? t.name = some existing) :
    addedTo existing (missingColumns live tables) = lacking existing t.columns := by
  have hname := findTable?_name hn hlive
  obtain ⟨front, back, rfl⟩ := List.append_of_mem ht
  rw [DistinctNames, List.map_append, List.map_cons, List.nodup_middle, List.nodup_cons,
    ← List.map_append] at hnames
  have hother : ∀ u ∈ front ++ back, Text.fold u.name ≠ Text.fold existing.name := fun u hu heq =>
    hnames.1 (List.mem_map.mpr ⟨u, hu, heq.trans hname⟩)
  have hfront := addedTo_of_other hn fun u hu => hother u (List.mem_append_left _ hu)
  have hback := addedTo_of_other hn fun u hu => hother u (List.mem_append_right _ hu)
  have hhere : addedTo existing ((lacking existing t.columns).map fun c => (existing.name, c)) =
      lacking existing t.columns := by
    simp [addedTo, List.filter_map, Function.comp_def]
  calc addedTo existing (missingColumns live (front ++ t :: back))
      = addedTo existing (missingColumns live front) ++
          (addedTo existing ((lacking existing t.columns).map fun c => (existing.name, c)) ++
            addedTo existing (missingColumns live back)) := by
        simp [missingColumns, hlive, addedTo]
    _ = lacking existing t.columns := by rw [hfront, hback, hhere, List.nil_append, List.append_nil]

def migratedTable (live : LiveSchema) (t : Table) : Table :=
  match live.findTable? t.name with
  | none => t
  | some existing => existing.extend (lacking existing t.columns)

lemma findTable?_of_reconcile {declared : Schema} {plan : Plan}
    (hb : Schema.build tables indexes = .ok declared) (hn : live.Named)
    (hr : reconcile declared live = .ok plan) (ht : t ∈ tables) :
    (live.applyAll plan.operations).findTable? t.name = some (migratedTable live t) := by
  obtain ⟨hc, rfl⟩ := Schema.build_eq_ok_iff.mp hb
  obtain ⟨hl, hops⟩ := reconcile_eq_ok hr
  obtain ⟨found, hfound, hfrom⟩ := found_after_creations hc hl ht
  rw [hops, hc.values_tables, applyAll_append, applyAll_append, findTable?_indexings,
    findTable?_additions (hn.applyAll _), hfound, Option.map_some, migratedTable]
  -- a table that was created has all its columns, so none is added to it
  rcases hfrom with hlive | ⟨hlive, rfl⟩
  · rw [hlive, addedTo_missingColumns hn hc.names ht hlive]
  · have hnone : addedTo found (missingColumns live tables) = [] := by
      refine List.eq_nil_iff_forall_not_mem.mpr fun c hc => ?_
      obtain ⟨u, -, other, hother, hname, -⟩ := mem_missingColumns.mp (mem_addedTo.mp hc)
      have hfold : Text.fold u.name = Text.fold found.name :=
        (findTable?_name hn hother).symm.trans (congrArg Text.fold hname)
      rw [findTable?_congr live hfold, hlive] at hother
      cases hother
    rw [hlive, hnone, Table.extend, List.append_nil]

lemma migratedTable_iff {p : Table → Prop} (ht : p t) : p (migratedTable live t) ↔
    ∀ existing, live.findTable? t.name = some existing →
      p (existing.extend (lacking existing t.columns)) := by
  rw [migratedTable]
  cases live.findTable? t.name with
  | none => exact iff_of_true ht nofun
  | some existing =>
    exact ⟨fun h other hother => Option.some.inj hother ▸ h, fun h => h existing rfl⟩

lemma foldedNames_migratedTable_eq_iff (hdistinct : t.foldedNames.Nodup) :
    (migratedTable live t).foldedNames = t.foldedNames ↔
      ∀ existing, live.findTable? t.name = some existing →
        existing.foldedNames <+: t.foldedNames := by
  refine (migratedTable_iff (p := (·.foldedNames = t.foldedNames)) rfl).trans ?_
  refine forall₂_congr fun existing _ => ?_
  rw [Table.foldedNames_extend_lacking, append_absent_eq_iff hdistinct]

lemma foldedNames_migratedTable_perm_iff (hdistinct : t.foldedNames.Nodup) :
    (migratedTable live t).foldedNames.Perm t.foldedNames ↔
      ∀ existing, live.findTable? t.name = some existing →
        existing.foldedNames.Nodup ∧ existing.foldedNames ⊆ t.foldedNames := by
  refine (migratedTable_iff (p := (·.foldedNames.Perm t.foldedNames)) (.refl _)).trans ?_
  refine forall₂_congr fun existing _ => ?_
  rw [Table.foldedNames_extend_lacking, append_absent_perm_iff hdistinct]

end Found

end Tablewright
