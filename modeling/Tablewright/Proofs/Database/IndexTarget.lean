import Tablewright.Proofs.Database.Closed
import Tablewright.Proofs.Engine.Willing
import Tablewright.Proofs.Schema.Accepted

namespace Tablewright

namespace Schema

section

variable {tables : List Table} {indexes : List Index} {name : String} {t : Table}

lemma Consistent.get?_eq_some_iff (h : Consistent tables indexes) :
    (ofDescriptions tables indexes).tables.get? name = some t ↔ t ∈ tables ∧ t.name = name := by
  refine ⟨h.mem_of_get?, ?_⟩
  rintro ⟨ht, rfl⟩
  rw [ofDescriptions]
  refine Keyed.get?_of_mem (Keyed.nodup_keys_ofList (·.name) tables) ?_
  rw [Keyed.ofList_of_nodup _ _ h.distinct_tables]
  exact List.mem_map_of_mem (f := fun t : Table => (t.name, t)) ht

end

end Schema

namespace Database

section

variable {schema : Schema} {tables : List Table} {indexes : List Index} {i : Index} {t : Table}

lemma checkIndexColumns_eq_ok_iff (columns : List String) :
    checkIndexColumns i t columns = .ok () ↔ ∀ c ∈ columns, (t.column? c).isSome := by
  induction columns with
  | nil => simp [checkIndexColumns]
  | cons c rest ih =>
    rw [checkIndexColumns, List.forall_mem_cons]
    by_cases hc : (t.column? c).isSome
    · rw [if_pos hc, ih, and_iff_right hc]
    · rw [if_neg hc]
      exact ⟨nofun, fun h => absurd h.1 hc⟩

lemma checkIndex_eq_ok_iff : checkIndex schema i = .ok () ↔
    ∃ t, schema.tables.get? i.table = some t ∧
      i.columns ≠ [] ∧ ∀ c ∈ i.columns, (t.column? c).isSome := by
  rw [checkIndex]
  cases schema.tables.get? i.table with
  | none => simp
  | some t =>
    cases i.columns with
    | nil => simp
    | cons c rest => simp [checkIndexColumns_eq_ok_iff]

lemma checkIndex_of_unknown (h : schema.tables.get? i.table = none) :
    checkIndex schema i = .error (.unknownTable i.table) := by
  rw [checkIndex, h]

lemma checkIndex_ofDescriptions (h : Schema.Consistent tables indexes) :
    checkIndex (.ofDescriptions tables indexes) i = .ok () ↔
      Schema.checkIndex tables i = .ok () ∧ i.table ∈ tables.map (·.name) := by
  have hfound (p : Table → Prop) :
      (∃ t, Schema.findFolded? tables i.table = some t ∧ p t) ↔
        ∃ t ∈ tables, Text.fold t.name = Text.fold i.table ∧ p t :=
    Schema.exists_findFolded?_iff h.names
  rw [checkIndex_eq_ok_iff, Schema.checkIndex_eq_ok_iff, List.mem_map]
  constructor
  · rintro ⟨t, hget, hne, hcolumns⟩
    obtain ⟨ht, hname⟩ := h.get?_eq_some_iff.mp hget
    exact ⟨⟨hne, (hfound _).mpr ⟨t, ht, congrArg Text.fold hname, hcolumns⟩⟩, t, ht, hname⟩
  · rintro ⟨⟨hne, hsound⟩, t, ht, hname⟩
    obtain ⟨u, hu, hfold, hcolumns⟩ := (hfound _).mp hsound
    obtain rfl : t = u :=
      List.inj_on_of_nodup_map h.names ht hu (hfold.trans (congrArg Text.fold hname.symm)).symm
    exact ⟨t, h.get?_eq_some_iff.mpr ⟨ht, hname⟩, hne, hcolumns⟩

end

section Willing

variable {w : Exchange × Database}

lemma run_executeDdl {d : Ddl} (hparams : d.sql.params = []) (hopen : w.2.closed = false)
    (hwilling : w.1.Willing) : ∃ count w',
      (execute (.statement (.ddl d)) .nothing).run w = (.ok count, w') ∧
        w'.2.schema = w.2.schema ∧ w'.2.closed = false ∧ w'.1.Willing := by
  obtain ⟨c, hc, hslots, hwrite, hddl⟩ : ∃ c, (Query.statement (.ddl d)).compile = .ok c ∧
      c.slots = [] ∧ c.isWrite = true ∧ c.isDdl = true :=
    ⟨_, rfl, by simp [Sql.slots, hparams], rfl, rfl⟩
  have hbind : c.bind .nothing = .ok [] := by
    rw [Compiled.bind, hslots]
    rfl
  obtain ⟨result, w₁, hwritten, hwilling'⟩ := Connection.succeeds_write
    (Compiled.bind_sequence hbind) (w.1, w.2.writer) hwilling
  have hrun : (run c .nothing).run w =
      (.ok result, (invalidateCaches (w₁.1, { w.2 with writer := w₁.2 })).2) := by
    have hensured : ensureOpen.run w = (.ok (), w) := by
      rw [run_ensureOpen, hopen]
      rfl
    rw [run, Job.run_ofExcept_bind_of_ok hbind, Job.run_bind, hensured, if_pos hwrite]
    dsimp only
    rw [Job.run_bind, onWriter, Job.run_within, hwritten]
    dsimp only
    rw [if_pos hddl]
    rfl
  refine ⟨result.count, (invalidateCaches (w₁.1, { w.2 with writer := w₁.2 })).2, ?_, rfl, hopen,
    hwilling'⟩
  rw [execute, run_compile hc, Job.run_bind, hrun]
  rfl

lemma run_dropIndex (i : Index) (hopen : w.2.closed = false) (hwilling : w.1.Willing) :
    ∃ w', (dropIndex i).run w = (.ok (), w') ∧
      w'.2.schema = w.2.schema ∧ w'.2.closed = false ∧ w'.1.Willing := by
  obtain ⟨count, w', hrun, hkept⟩ := run_executeDdl (d := .dropIndex i) rfl hopen hwilling
  refine ⟨w', ?_, hkept⟩
  rw [dropIndex, Job.run_bind, hrun]
  rfl

lemma run_createIndex {i : Index} (h : checkIndex w.2.schema i = .ok ())
    (hopen : w.2.closed = false) (hwilling : w.1.Willing) :
    ∃ w', (createIndex i).run w = (.ok (), w') := by
  obtain ⟨count, w', hrun, -⟩ := run_executeDdl (params_createIndex i) hopen hwilling
  refine ⟨w', ?_⟩
  rw [createIndex, Job.run_subject_bind, Job.run_ofExcept_bind_of_ok h, Job.run_bind, hrun]
  rfl

lemma run_createIndex_of_error {i : Index} {e : BuildError}
    (h : checkIndex w.2.schema i = .error e) : (createIndex i).run w = (.error (.build e), w) := by
  rw [createIndex, Job.run_subject_bind, Job.run_bind, Job.run_ofExcept, h]
  rfl

end Willing

/-- On demand an index can be created where its declaration is accepted and has the name of its
table as it was declared. An index of the schema can be dropped in any case, and then be created again
only under that name. -/
theorem checkIndex_iff_spelled {tables : List Table} {indexes : List Index} {schema : Schema}
    (h : Schema.build tables indexes = .ok schema) :
    (∀ i, checkIndex schema i = .ok () ↔
      Schema.checkIndex tables i = .ok () ∧ i.table ∈ tables.map (·.name)) ∧
    ∀ i ∈ indexes, ∀ w : Exchange × Database,
      w.2.schema = schema → w.2.closed = false → w.1.Willing →
        ∃ w', (dropIndex i).run w = (.ok (), w') ∧
          (i.table ∈ tables.map (·.name) → ∃ w'', (createIndex i).run w' = (.ok (), w'')) ∧
          (i.table ∉ tables.map (·.name) →
            (createIndex i).run w' = (.error (.build (.unknownTable i.table)), w')) := by
  obtain ⟨hconsistent, rfl⟩ := Schema.build_eq_ok_iff.mp h
  refine ⟨fun i => checkIndex_ofDescriptions hconsistent, fun i hi w hschema hopen hwilling => ?_⟩
  obtain ⟨w', hdrop, hschema', hopen', hwilling'⟩ := run_dropIndex i hopen hwilling
  have hdeclared := (Schema.checkIndex_eq_ok_iff tables i).mpr (hconsistent.soundIndexes i hi)
  refine ⟨w', hdrop, fun hspelled => ?_, fun hspelled => ?_⟩
  · refine run_createIndex ?_ hopen' hwilling'
    rw [hschema', hschema]
    exact (checkIndex_ofDescriptions hconsistent).mpr ⟨hdeclared, hspelled⟩
  · refine run_createIndex_of_error ?_
    rw [hschema', hschema]
    refine checkIndex_of_unknown (Option.eq_none_iff_forall_ne_some.mpr fun t hget => hspelled ?_)
    obtain ⟨ht, hname⟩ := hconsistent.get?_eq_some_iff.mp hget
    exact List.mem_map.mpr ⟨t, ht, hname⟩

namespace Notes

def note : Table := ⟨"note", [{ name := "id", kind := .integer, primaryKey := true }]⟩

def byId : Index := ⟨"note_id", "Note", ["id"], false⟩

def declared : Schema := .ofDescriptions [note] [byId]

def opened : Database :=
  { schema := declared, settings := {}, readsApart := false,
    writer := { role := .writer, settings := {}, number := 1, generation := 1 } }

end Notes

open Notes in
theorem checkIndex_iff_spelled_note : Schema.build [note] [byId] = .ok declared ∧
    ∃ w', (dropIndex byId).run ({}, opened) = (.ok (), w') ∧
      (createIndex byId).run w' = (.error (.build (.unknownTable "Note")), w') := by
  have hbuild : Schema.build [note] [byId] = .ok declared := by decide +kernel
  obtain ⟨-, hagain⟩ := checkIndex_iff_spelled hbuild
  obtain ⟨w', hdrop, -, hcreate⟩ := hagain byId (by simp) ({}, opened) rfl rfl nofun
  exact ⟨hbuild, w', hdrop, hcreate (by decide)⟩

open Notes in
/-- An index that is part of the schema, and that cannot be created on demand. -/
theorem checkIndex_refuses_declared : ∃ tables indexes schema i,
    Schema.build tables indexes = .ok schema ∧ i ∈ indexes ∧
      Schema.checkIndex tables i = .ok () ∧
      checkIndex schema i = .error (.unknownTable "Note") :=
  ⟨[note], [byId], declared, byId, by decide +kernel, by simp, by decide +kernel, by decide +kernel⟩

end Database

end Tablewright
