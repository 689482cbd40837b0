import Tablewright.Proofs.Migration.Refusal
import Tablewright.Proofs.Statement.Token

namespace Tablewright

def leadingKeyword? (sql : String) : Option String :=
  match tokens sql with
  | .word w :: _ => some (String.ofList (w.map Char.toUpper))
  | _ => none

def saysNull (sql : String) : Bool := leadingKeyword? sql == some "NULL"

def saysNow (sql : String) : Bool :=
  ["CURRENT_TIME", "CURRENT_DATE", "CURRENT_TIMESTAMP"].any fun k => leadingKeyword? sql == some k

def isParenthesised (sql : String) : Bool := (tokens sql).head? == some (.mark '(')

/-- What the engine asks of the default of a column that is added; `enforced` says whether it checks
references. -/
structure Column.DefaultFits (enforced : Bool) (c : Column) (sql : String) : Prop where
  notNull : c.notNull = true → saysNull sql = false
  references : enforced = true → c.references.isSome → saysNull sql = true
  now : saysNow sql = false
  parenthesised : isParenthesised sql = false

structure Column.Appendable (enforced : Bool) (c : Column) : Prop where
  key : c.primaryKey = false
  unique : c.unique = false
  given : c.notNull = true → c.fallback.isSome
  fallback : ∀ sql, c.fallback = some sql → c.DefaultFits enforced sql

lemma unaddable_eq_false_iff {c : Column} :
    c.unaddable = false ↔
      c.primaryKey = false ∧ c.unique = false ∧ (c.notNull = true → c.fallback.isSome) := by
  rw [Column.unaddable]
  cases c.primaryKey <;> cases c.unique <;> cases c.notNull <;> cases c.fallback <;> simp

section

variable {tables : List Table} {indexes : List Index} {declared : Schema} {live : LiveSchema}
  {plan : Plan}

lemma lacks_iff {p : Table × Column} :
    live.lacks p = true ↔ ∃ existing, live.findTable? p.1.name = some existing ∧
      existing.column? p.2.name = none := by
  simp [LiveSchema.lacks, Option.any_eq_true]

lemma exists_addColumn_iff (hb : Schema.build tables indexes = .ok declared)
    (hr : reconcile declared live = .ok plan) {c : Column} :
    (∃ table, Ddl.addColumn table c ∈ plan.operations) ↔
      ∃ t, (t, c) ∈ columnsOf tables ∧ live.lacks (t, c) = true := by
  obtain ⟨hc, rfl⟩ := Schema.build_eq_ok_iff.mp hb
  have hmem (table : String) : Ddl.addColumn table c ∈ plan.operations ↔
      (table, c) ∈ missingColumns live tables := by
    rw [(reconcile_eq_ok hr).2, hc.values_tables]
    simp [LiveSchema.creations, LiveSchema.additions, LiveSchema.indexings]
  simp only [hmem, mem_missingColumns, mem_columnsOf, lacks_iff]
  constructor
  · rintro ⟨table, t, ht, existing, hlive, -, hcol, hnone⟩
    exact ⟨t, ⟨ht, hcol⟩, existing, hlive, hnone⟩
  · rintro ⟨t, ⟨ht, hcol⟩, existing, hlive, hnone⟩
    exact ⟨existing.name, t, ht, existing, hlive, rfl, hcol, hnone⟩

lemma unaddable_of_lacks (hb : Schema.build tables indexes = .ok declared)
    (hr : reconcile declared live = .ok plan) {p : Table × Column} (hp : p ∈ columnsOf tables)
    (hl : live.lacks p = true) : p.2.unaddable = false := by
  have hnone : (columnsOf tables).find? (fun p => live.lacks p && p.2.unaddable) = none := by
    cases hf : (columnsOf tables).find? (fun p => live.lacks p && p.2.unaddable) with
    | none => rfl
    | some q =>
      rw [(reconcile_eq_error_iff_of_build hb).mpr ⟨q, hf, rfl⟩] at hr
      cases hr
  simpa [hl] using List.find?_eq_none.mp hnone p hp

end

/-- No column that a plan adds is a key or unique, or may not be null and has no default. The engine
can add them all if and only if it can take the defaults of all the columns that live tables lack. -/
theorem reconcile_appendable_iff {tables : List Table} {indexes : List Index} {declared : Schema}
    {live : LiveSchema} {plan : Plan} (hb : Schema.build tables indexes = .ok declared)
    (hr : reconcile declared live = .ok plan) (enforced : Bool) :
    (∀ table c, Ddl.addColumn table c ∈ plan.operations →
      c.primaryKey = false ∧ c.unique = false ∧ (c.notNull = true → c.fallback.isSome)) ∧
    ((∀ table c, Ddl.addColumn table c ∈ plan.operations → c.Appendable enforced) ↔
      ∀ p ∈ columnsOf tables, live.lacks p = true → ∀ sql, p.2.fallback = some sql →
        p.2.DefaultFits enforced sql) := by
  have hchecked : ∀ table c, Ddl.addColumn table c ∈ plan.operations →
      c.primaryKey = false ∧ c.unique = false ∧ (c.notNull = true → c.fallback.isSome) := by
    intro table c hop
    obtain ⟨t, hp, hl⟩ := (exists_addColumn_iff hb hr).mp ⟨table, hop⟩
    exact unaddable_eq_false_iff.mp (unaddable_of_lacks hb hr hp hl)
  refine ⟨hchecked, fun h p hp hl => ?_, fun h table c hop => ?_⟩
  · obtain ⟨table, hop⟩ := (exists_addColumn_iff hb hr).mpr ⟨p.1, hp, hl⟩
    exact (h table p.2 hop).fallback
  · obtain ⟨hkey, hunique, hgiven⟩ := hchecked table c hop
    obtain ⟨t, hp, hl⟩ := (exists_addColumn_iff hb hr).mp ⟨table, hop⟩
    exact ⟨hkey, hunique, hgiven, h (t, c) hp hl⟩

namespace Notebook

def keyed : Column := { name := "id", kind := .integer, primaryKey := true }

def body : Column := { name := "body", kind := .text, notNull := true, fallback := some "''" }

def parent : Column :=
  { name := "parent", kind := .integer, references := some ⟨"note", "id"⟩, fallback := some "null" }

def note : Table := ⟨"note", [keyed, body, parent]⟩

def live : LiveSchema := .ofDescriptions [⟨"Note", [keyed]⟩] []

def empty : Column := { name := "body", kind := .text, notNull := true, fallback := some "NULL" }

end Notebook

open Notebook in
theorem reconcile_appendable_iff_note :
    Schema.build [note] = .ok (.ofDescriptions [note] []) ∧
      reconcile (.ofDescriptions [note] []) Notebook.live =
        .ok ⟨[.addColumn "Note" body, .addColumn "Note" parent]⟩ ∧
      ∀ table c, Ddl.addColumn table c ∈ [.addColumn "Note" body, .addColumn "Note" parent] →
        c.Appendable true := by
  have hb : Schema.build [note] = .ok (.ofDescriptions [note] []) := by rfl
  have hr : reconcile (.ofDescriptions [note] []) Notebook.live =
      .ok ⟨[.addColumn "Note" body, .addColumn "Note" parent]⟩ := by rfl
  refine ⟨hb, hr, (reconcile_appendable_iff hb hr true).2.mpr fun p hp _ sql hsql => ?_⟩
  have hcolumns : p ∈ [(note, keyed), (note, body), (note, parent)] := hp
  rcases List.mem_cons.mp hcolumns with rfl | hp
  · cases hsql
  · rcases List.mem_pair.mp hp with rfl | rfl
    · obtain rfl : "''" = sql := Option.some.inj hsql
      exact ⟨fun _ => by rfl, nofun, by rfl, by rfl⟩
    · obtain rfl : "null" = sql := Option.some.inj hsql
      exact ⟨nofun, fun _ _ => by rfl, by rfl, by rfl⟩

open Notebook in
/-- A column that may not be null is added with null as its default. -/
theorem reconcile_adds_null_default :
    Schema.build [⟨"note", [keyed, empty]⟩] = .ok (.ofDescriptions [⟨"note", [keyed, empty]⟩] []) ∧
      reconcile (.ofDescriptions [⟨"note", [keyed, empty]⟩] []) Notebook.live =
        .ok ⟨[.addColumn "Note" empty]⟩ ∧
      ∀ enforced, ¬ empty.Appendable enforced := by
  refine ⟨by rfl, by rfl, fun enforced h => ?_⟩
  have hsays : saysNull "NULL" = false := (h.fallback "NULL" rfl).notNull rfl
  exact absurd hsays (by decide)

end Tablewright
