import Mathlib.Data.List.Basic
import Tablewright.Proofs.Outcome
import Tablewright.Proofs.Schema.Declared
import Tablewright.Proofs.Schema.Keyed
import Tablewright.Statement.Basic

namespace Tablewright

variable {t : Table} {entries : List (String × Supply)}

def latestFor {α : Type} (column : String) (entries : List (String × α)) : Option (String × α) :=
  latest (fun e => Text.fold e.1) (Text.fold column) entries

def byName (entries : List (String × Supply)) : List (ColumnKey × Supply) :=
  entries.map fun e => (.name e.1, e.2)

lemma columnNamed_eq_ok_iff {name : String} {c : TableColumn} :
    t.columnNamed name = .ok c ↔ ∃ d, t.column? name = some d ∧ c = t.column d := by
  rw [Table.columnNamed]
  cases t.column? name with
  | none => exact ⟨nofun, fun ⟨_, h, _⟩ => nomatch h⟩
  | some d => simp [eq_comm]

section Keys

variable {entries : List (ColumnKey × Supply)}

def resolvedEntries (t : Table) (entries : List (ColumnKey × Supply)) : List Assignment :=
  entries.filterMap fun e => (e.1.resolve t).toOption.map (·, e.2)

def latestByColumn (t : Table) (pairs : List Assignment) : List Assignment :=
  t.allColumns.filterMap fun c => (latest (·.1.name) c.name pairs).map fun p => (c, p.2)

lemma resolveKeys_eq_ok_iff {resolved out : Keyed Supply} :
    resolveKeys t resolved entries = .ok out ↔
      (∀ e ∈ entries, ∃ c, e.1.resolve t = .ok c) ∧
        out = (resolvedEntries t entries).foldl (fun es p => es.put p.1.name p.2) resolved := by
  induction entries generalizing resolved with
  | nil => simp [resolveKeys, resolvedEntries, eq_comm]
  | cons e entries ih =>
    obtain ⟨key, v⟩ := e
    rw [resolveKeys, List.forall_mem_cons, resolvedEntries, List.filterMap_cons]
    cases hkey : key.resolve t with
    | error f => exact ⟨nofun, fun ⟨⟨⟨_, h⟩, _⟩, _⟩ => nomatch h⟩
    | ok c =>
      refine ih.trans (and_congr_left fun _ => ?_)
      exact (and_iff_right ⟨c, rfl⟩).symm

lemma get?_foldl_resolved (pairs : List Assignment) (key : String) :
    Keyed.get? (pairs.foldl (fun es p => Keyed.put p.1.name p.2 es) []) key =
      (latest (·.1.name) key pairs).map (·.2) := by
  rw [Keyed.get?_foldl_put, Keyed.get?, List.lookup_nil, Option.or_none]

lemma filterMap_foldl_put (pairs : List Assignment) :
    (t.allColumns.filterMap fun c =>
      (Keyed.get? (pairs.foldl (fun es p => Keyed.put p.1.name p.2 es) []) c.name).map
        fun v => (c, v)) = latestByColumn t pairs :=
  List.filterMap_congr fun c _ => by
    rw [get?_foldl_resolved, Option.map_map]
    rfl

lemma foldl_put_ne_nil {pairs : List Assignment} (h : pairs ≠ []) :
    pairs.foldl (fun es p => Keyed.put p.1.name p.2 es) [] ≠ [] := by
  obtain ⟨p, hp⟩ := List.exists_mem_of_ne_nil pairs h
  have hlatest : (latest (·.1.name) p.1.name pairs).isSome := latest_isSome_iff.mpr ⟨p, hp, rfl⟩
  obtain ⟨q, hq⟩ := Option.isSome_iff_exists.mp hlatest
  intro hnone
  have hget := get?_foldl_resolved pairs p.1.name
  rw [hnone, hq] at hget
  cases hget

lemma assignments_eq_ok_iff {assigned : List Assignment} :
    assignments t entries = .ok assigned ↔ entries ≠ [] ∧
      (∀ e ∈ entries, ∃ c, e.1.resolve t = .ok c) ∧
        assigned = latestByColumn t (resolvedEntries t entries) := by
  rw [assignments]
  constructor
  · intro h
    split at h
    · cases h
    · next out hout =>
      obtain ⟨hkeys, rfl⟩ := resolveKeys_eq_ok_iff.mp hout
      split at h
      · cases h
      · next hsome =>
        refine ⟨?_, hkeys, (Except.ok.inj h).symm.trans (filterMap_foldl_put _)⟩
        rintro rfl
        exact hsome rfl
  · rintro ⟨hentries, hkeys, rfl⟩
    obtain ⟨e, he⟩ := List.exists_mem_of_ne_nil entries hentries
    obtain ⟨c, hc⟩ := hkeys e he
    have hp : (c, e.2) ∈ resolvedEntries t entries :=
      List.mem_filterMap.mpr ⟨e, he, by rw [hc]; rfl⟩
    have hsome := foldl_put_ne_nil (List.ne_nil_of_mem hp)
    rw [resolveKeys_eq_ok_iff.mpr ⟨hkeys, rfl⟩]
    exact (if_neg (mt List.isEmpty_iff.mp hsome)).trans
      (congrArg Except.ok (filterMap_foldl_put _))

end Keys

lemma resolve_name_eq_ok_iff {name : String} {c : TableColumn} :
    (ColumnKey.name name).resolve t = .ok c ↔ ∃ d, t.column? name = some d ∧ c = t.column d := by
  rw [ColumnKey.resolve, mapError_eq_ok_iff, columnNamed_eq_ok_iff]

lemma assignments_byName_eq_ok_iff (ht : t.foldedNames.Nodup) {assigned : List Assignment} :
    assignments t (byName entries) = .ok assigned ↔
      entries ≠ [] ∧ (∀ e ∈ entries, (t.column? e.1).isSome) ∧
        assigned = t.allColumns.filterMap fun c =>
          (latestFor c.name entries).map fun e => (c, e.2) := by
  have hkey (e : String × Supply) :
      (∃ c, (ColumnKey.name e.1).resolve t = .ok c) ↔ (t.column? e.1).isSome := by
    simp [resolve_name_eq_ok_iff, Option.isSome_iff_exists]
  rw [assignments_eq_ok_iff, byName, ne_eq, List.map_eq_nil_iff, List.forall_mem_map]
  simp only [hkey]
  refine and_congr_right fun _ => and_congr_right fun hnames => ?_
  suffices h : latestByColumn t (resolvedEntries t (byName entries)) =
      t.allColumns.filterMap fun c => (latestFor c.name entries).map fun e => (c, e.2) by
    rw [← h, byName]
  refine List.filterMap_congr fun c hmem => ?_
  obtain ⟨c, hc, rfl⟩ := List.mem_map.mp hmem
  rw [resolvedEntries, byName, List.filterMap_map]
  refine latest_filterMap fun e he => ?_
  obtain ⟨d, hd⟩ := Option.isSome_iff_exists.mp (hnames e he)
  have hfold : Text.fold d.name = Text.fold e.1 := by simpa using List.find?_some hd
  refine ⟨(t.column d, e.2), ?_, ?_, rfl⟩
  · rw [Function.comp_apply, resolve_name_eq_ok_iff.mpr ⟨d, hd, rfl⟩]
    rfl
  · rw [← hfold]
    exact ⟨congrArg Text.fold, fun h => congrArg Column.name
      (Table.column_eq_of_fold ht (List.mem_of_find?_eq_some hd) hc h)⟩

namespace Instance

def assigned (t : Table) (i : Instance) : List Assignment :=
  t.allColumns.filterMap fun c =>
    (latestFor c.name i.fields).map fun f => (c, .param { value := some f.2.1 })

end Instance

lemma assignmentEntries_model (i : Instance) : (Term.model i).assignmentEntries false =
    .ok (byName (i.fields.map fun f => (f.1, .param { value := some f.2.1 }))) := by
  have hall : i.fields.filter (fun f => f.2.2 || !false) = i.fields :=
    List.filter_eq_self.mpr fun f _ => Bool.or_true _
  rw [Term.assignmentEntries, Instance.entries, hall, byName, List.map_map, List.map_map]
  rfl

lemma values_model_eq_ok_iff {s s' : Insert} (ht : s.table.foldedNames.Nodup) {i : Instance} :
    s.values (.model i) = .ok s' ↔
      i.fields ≠ [] ∧ (∀ f ∈ i.fields, (s.table.column? f.1).isSome) ∧
        s' = { s with assignments := i.assigned s.table } := by
  have hsame : (s.table.allColumns.filterMap fun c =>
      (latestFor c.name (i.fields.map fun f => (f.1, Supply.param { value := some f.2.1 }))).map
        fun e => (c, e.2)) = i.assigned s.table := by
    refine List.filterMap_congr fun c _ => ?_
    rw [latestFor, latest_map, Option.map_map]
    rfl
  have hassigned (assigned : List Assignment) :
      (Term.model i).assignments s.table false = .ok assigned ↔
        i.fields ≠ [] ∧ (∀ f ∈ i.fields, (s.table.column? f.1).isSome) ∧
          assigned = i.assigned s.table := by
    rw [Term.assignments, assignmentEntries_model]
    refine (assignments_byName_eq_ok_iff ht).trans ?_
    rw [hsame, List.forall_mem_map, ne_eq, List.map_eq_nil_iff]
  simp only [Insert.values, seq_eq_ok_iff, pure_eq_ok_iff, hassigned]
  constructor
  · rintro ⟨_, ⟨hfields, hnames, rfl⟩, rfl⟩
    exact ⟨hfields, hnames, rfl⟩
  · rintro ⟨hfields, hnames, rfl⟩
    exact ⟨_, ⟨hfields, hnames, rfl⟩, rfl⟩

end Tablewright
