import Tablewright.Proofs.Migration.Columns
import Tablewright.Proofs.Rows.Resolved
import Tablewright.Proofs.Rows.Served

/-! The rows that a writing statement returns. Their columns are those of the live table, while the
statement and the models that stand for the table go by the declared one; after a migration the two
agree only if the live table had no columns of its own, and only in this order if those that it had
are declared first. -/

namespace Tablewright

open LiveSchema

variable {tables : List Table} {indexes : List Index} {t : Table}

namespace Statement

def returned? : Statement → Option Table
  | insert s => if s.returning then some s.table else none
  | update s => if s.returning then some s.table else none
  | delete s => if s.returning then some s.table else none
  | select _ => none
  | ddl _ => none

lemma ofTable_of_returning {returning : Bool} {u : Table}
    (h : (if returning then some u else none) = some t) :
    (if returning then resultColumns.ofTable u else []) = t.columnNames.map (t.name, ·) := by
  cases returning with
  | false => cases h
  | true => exact congrArg resultColumns.ofTable (Option.some.inj h)

lemma columns_of_returned {s : Statement} {c : Compiled} (hs : s.returned? = some t)
    (hcompile : s.compile = .ok c) : c.columns = t.columnNames.map (t.name, ·) := by
  obtain ⟨sql, -, rfl⟩ := map_eq_ok_iff.mp hcompile
  cases s with
  | insert s => exact ofTable_of_returning hs
  | update s => exact ofTable_of_returning hs
  | delete s => exact ofTable_of_returning hs
  | select s => cases hs
  | ddl d => cases hs

end Statement

lemma forall₂_origins_iff {names : List String} :
    List.Forall₂ (fun name (origin : String × String) =>
      origin.1 = t.name ∧ Text.fold name = Text.fold origin.2) names
      (t.columnNames.map (t.name, ·)) ↔ names.map Text.fold = t.foldedNames := by
  rw [List.forall₂_map_right_iff, Table.foldedNames, ← List.forall₂_eq_eq_eq,
    List.forall₂_map_left_iff, List.forall₂_map_right_iff]
  simp only [true_and]

lemma PlainShape.Of.resolve_iff {s : PlainShape} {columns : List String} (h : s.Of t)
    (hdistinct : t.foldedNames.Nodup) :
    ((∃ r, (Shape.plain s).resolve columns = .ok r) ↔
      (columns.map Text.fold).Perm t.foldedNames) ∧
    ∀ e, (Shape.plain s).resolve columns = .error e →
      e = .columnSet s.model.name t.name t.columnNames columns := by
  rw [Shape.resolve]
  by_cases hcolumns : (columns.map Text.fold).Perm t.foldedNames
  · rw [h.resolve_of_perm hcolumns hdistinct]
    exact ⟨iff_of_true ⟨_, rfl⟩ hcolumns, nofun⟩
  · rw [h.resolve_of_not_perm hcolumns]
    exact ⟨iff_of_false nofun hcolumns, fun e he => (Except.error.inj he).symm⟩

/-- What a statement returns from a table after a migration is as the statement tells, position by
position, if and only if the columns of the live table are declared first and in their order. A
model that stands for the table maps it if and only if all of them are declared. -/
theorem returned_columns_iff {liveTables : List Table} {liveIndexes : List Index}
    {declared : Schema} {plan : Plan} {s : Statement} {c : Compiled}
    (hb : Schema.build tables indexes = .ok declared)
    (hr : reconcile declared (.ofDescriptions liveTables liveIndexes) = .ok plan)
    (ht : t ∈ tables) (hs : s.returned? = some t) (hcompile : s.compile = .ok c) :
    let live := LiveSchema.ofDescriptions liveTables liveIndexes
    ∃ found, (live.applyAll plan.operations).findTable? t.name = some found ∧
      (List.Forall₂ (fun name origin => origin.1 = t.name ∧ Text.fold name = Text.fold origin.2)
          found.columnNames c.columns ↔
        ∀ existing, live.findTable? t.name = some existing →
          existing.foldedNames <+: t.foldedNames) ∧
      ∀ (tasks : List RowTask) (m : Model) (shape : PlainShape), ToldApart (mentioned tasks m) →
        m.binding = some t.name → answer declared tasks m = .ok (.plain shape) →
        ((∃ r, (Shape.plain shape).resolve found.columnNames = .ok r) ↔
          ∀ existing, live.findTable? t.name = some existing →
            existing.foldedNames.Nodup ∧ existing.foldedNames ⊆ t.foldedNames) ∧
        ∀ e, (Shape.plain shape).resolve found.columnNames = .error e →
          e = .columnSet m.name t.name t.columnNames found.columnNames := by
  intro live
  have hn : live.Named := named_ofDescriptions liveTables liveIndexes
  have hfound := findTable?_of_reconcile hb hn hr ht
  obtain ⟨hc, rfl⟩ := Schema.build_eq_ok_iff.mp hb
  have hdistinct := hc.distinct_columns ht
  refine ⟨migratedTable live t, hfound, ?_, fun tasks m shape hapart hbound hanswer => ?_⟩
  · rw [Statement.columns_of_returned hs hcompile, forall₂_origins_iff]
    exact foldedNames_migratedTable_eq_iff hdistinct
  · have hplain : analysePlain _ m = .ok shape := fits_of_answer hapart hanswer
    have hof := hc.analysePlain_of ht hbound hplain
    obtain ⟨table, -, -, rfl⟩ := analysePlain_eq_ok_iff.mp hplain
    rw [← foldedNames_migratedTable_perm_iff hdistinct]
    exact hof.resolve_iff hdistinct

namespace Extra

def key : Column := { name := "id", kind := .integer, primaryKey := true }

def body : Column := { name := "body", kind := .text }

def note : Table := ⟨"note", [key, body]⟩

def declared : Schema := .ofDescriptions [note] []

def turned : Table := ⟨"Note", [{ name := "BODY", kind := .text }, key]⟩

def longer : Table := ⟨"note", [key, body, { name := "extra", kind := .text }]⟩

def adding : Statement :=
  .insert { table := note, assignments := [(note.column key, .param { value := some (.int 1) })],
            returning := true }

def compiled : Compiled :=
  { sql := "INSERT INTO \"note\" (\"id\") VALUES (?) RETURNING *"
    slots := [⟨0, some (.int 1), none⟩]
    columns := [("note", "id"), ("note", "body")]
    returnsRows := true
    isWrite := true }

def line : Model := .mk 0 "Note" (some "note") [{ name := "id", type := .scalar .whole }]

def shape : PlainShape := ⟨line, [⟨"id", true⟩], some note⟩

lemma toldApart : ToldApart (mentioned [] line) :=
  toldApart_of_nodup [line] (by decide) (List.Subset.refl _)

end Extra

open Extra in
theorem returned_columns_iff_turned :
    Schema.build [note] [] = .ok Extra.declared ∧
      reconcile Extra.declared (.ofDescriptions [turned] []) = .ok ⟨[]⟩ ∧
      adding.compile = .ok compiled ∧
      ∃ found,
        ((LiveSchema.ofDescriptions [turned] []).applyAll []).findTable? "note" = some found ∧
        ¬ List.Forall₂ (fun name origin => origin.1 = "note" ∧ Text.fold name = Text.fold origin.2)
          found.columnNames compiled.columns ∧
        ∃ r, (Shape.plain Extra.shape).resolve found.columnNames = .ok r := by
  have hb : Schema.build [note] [] = .ok Extra.declared := rfl
  have hr : reconcile Extra.declared (.ofDescriptions [turned] []) = .ok ⟨[]⟩ := rfl
  have hcompile : adding.compile = .ok compiled := rfl
  have hlive : (LiveSchema.ofDescriptions [turned] []).findTable? "note" = some turned := rfl
  obtain ⟨found, hfound, hplaces, hmaps⟩ :=
    returned_columns_iff hb hr List.mem_cons_self (s := adding) rfl hcompile
  refine ⟨hb, hr, hcompile, found, hfound, fun h => ?_, ?_⟩
  · have hprefix := hplaces.mp h turned hlive
    exact absurd hprefix (by decide)
  · refine (hmaps [] line Extra.shape toldApart rfl rfl).1.mpr fun existing hexisting => ?_
    obtain rfl := Option.some.inj (hlive.symm.trans hexisting)
    decide

open Extra in
/-- A column that is not declared is returned all the same, and keeps every model of the table from
mapping the rows. -/
theorem returned_undeclared_column :
    Schema.build [note] [] = .ok Extra.declared ∧
      reconcile Extra.declared (.ofDescriptions [longer] []) = .ok ⟨[]⟩ ∧
      adding.compile = .ok compiled ∧ answer Extra.declared [] line = .ok (.plain Extra.shape) ∧
      ((LiveSchema.ofDescriptions [longer] []).applyAll []).findTable? "note" = some longer ∧
      longer.columnNames.length ≠ compiled.columns.length ∧
      (Shape.plain Extra.shape).resolve longer.columnNames =
        .error (.columnSet "Note" "note" ["id", "body"] ["id", "body", "extra"]) := by
  have hof : Extra.shape.Of note := ⟨rfl, by decide⟩
  have hresolve : Extra.shape.resolve longer.columnNames 0 = _ :=
    hof.resolve_of_not_perm (by decide)
  refine ⟨rfl, rfl, rfl, rfl, rfl, by decide, ?_⟩
  rw [Shape.resolve, hresolve]
  rfl

end Tablewright
