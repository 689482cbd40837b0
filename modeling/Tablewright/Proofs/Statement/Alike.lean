import Tablewright.Proofs.Statement.Blank

namespace Tablewright

namespace Predicate

lemma firstStray?_blank (ps : List Predicate) :
    firstStray? (ps.map (·.blank)) = firstStray? ps := by
  induction ps with
  | nil => rfl
  | cons p ps ih =>
    cases p with
    | stray v => rfl
    | comparison c | group k items => exact ih

lemma members_blank (k : Connective) (p : Predicate) :
    members k p.blank = (members k p).map (·.blank) := by
  cases p with
  | group k' items =>
    rw [blank, members, members]
    split
    · exact blanks_eq_map items
    · rw [List.map_singleton, blank]
  | comparison c | stray v => rfl

lemma combine_blank (k : Connective) (ps : List Predicate) :
    combine k (ps.map (·.blank)) = (combine k ps).map (·.blank) := by
  have hmembers : (ps.map (·.blank)).flatMap (members k) =
      (ps.flatMap (members k)).map (·.blank) := by
    rw [List.flatMap_map, List.map_flatMap]
    exact List.flatMap_congr fun p _ => members_blank k p
  by_cases hps : ps.isEmpty
  · simp only [combine, List.isEmpty_map, if_pos hps]
    rfl
  have hps' : ¬ (ps.map (·.blank)).isEmpty := by rwa [List.isEmpty_map]
  cases hstray : firstStray? ps with
  | some e =>
    simp only [combine, List.isEmpty_map, if_neg hps, firstStray?_blank, hstray]
    rfl
  | none =>
    have hstray' := (firstStray?_blank ps).trans hstray
    -- a single member is taken as it is; both sides have one, or neither has
    by_cases h : ∃ p, ps.flatMap (members k) = [p]
    · obtain ⟨p, hp⟩ := h
      rw [combine_of_single hps hstray hp]
      exact combine_of_single hps' hstray' (by rw [hmembers, hp, List.map_singleton])
    · rw [combine_of_several hps hstray (not_exists.mp h), combine_of_several hps' hstray',
        hmembers]
      · rw [Except.map, blank, blanks_eq_map]
      · intro p hp
        rw [hmembers, List.map_eq_singleton_iff] at hp
        obtain ⟨q, hq, -⟩ := hp
        exact h ⟨q, hq⟩

lemma restrict_blank (current : Option Predicate) (p : Predicate) :
    restrict (current.map (·.blank)) p.blank = (restrict current p).map (·.blank) := by
  cases current with
  | none => rfl
  | some q => exact combine_blank .and [q, p]

end Predicate

namespace Term

def blank : Term → Term
  | predicate p => predicate p.blank
  | t => t

lemma asPredicate_blank (t : Term) : t.blank.asPredicate = t.asPredicate.map (·.blank) := by
  cases t with
  | predicate p => cases p <;> rfl
  | _ => rfl

end Term

section Assignments

variable {table : Table}

lemma resolveKeys_map (f : Supply → Supply) (resolved : Keyed Supply)
    (entries : List (ColumnKey × Supply)) :
    resolveKeys table (resolved.map fun e => (e.1, f e.2)) (entries.map fun e => (e.1, f e.2)) =
      (resolveKeys table resolved entries).map (List.map fun e => (e.1, f e.2)) := by
  induction entries generalizing resolved with
  | nil => rfl
  | cons e entries ih =>
    rw [List.map_cons, resolveKeys, resolveKeys]
    cases e.1.resolve table with
    | error e => rfl
    | ok c =>
      have ih := ih (resolved.put c.name e.2)
      rwa [← Keyed.put_map] at ih

lemma assignments_blank (entries : List (ColumnKey × Supply)) :
    assignments table (entries.map fun e => (e.1, e.2.blank)) =
      (assignments table entries).map (List.map (·.blank)) := by
  have hresolved : resolveKeys table [] (entries.map fun e => (e.1, e.2.blank)) =
      (resolveKeys table [] entries).map (List.map fun e => (e.1, e.2.blank)) :=
    resolveKeys_map (·.blank) [] entries
  rw [assignments, assignments, hresolved]
  cases resolveKeys table [] entries with
  | error e => rfl
  | ok resolved =>
    simp only [Except.map, List.isEmpty_map]
    split
    · rfl
    · refine congrArg Except.ok ?_
      simp [List.map_filterMap, Keyed.get?_map, Assignment.blank, Function.comp_def]

namespace Term

def blankEntries (givenOnly : Bool) : Term → Term
  | map entries => map (entries.map fun e => (e.1, .supply e.2.asSupply.blank))
  | model m => map ((m.entries givenOnly).map fun f => (.text f.1, .supply (.param {})))
  | .value (.map entries) => map (entries.map fun e => (e.1, .supply (.param {})))
  | t => t

lemma assignmentEntries_blank (givenOnly : Bool) (t : Term) :
    (t.blankEntries givenOnly).assignmentEntries givenOnly =
      (t.assignmentEntries givenOnly).map (List.map fun e => (e.1, e.2.blank)) := by
  cases t with
  | map entries | model m =>
    refine congrArg Except.ok ?_
    rw [List.map_map, List.map_map]
    rfl
  | value v =>
    cases v with
    | map entries =>
      refine congrArg Except.ok ?_
      rw [List.map_map, List.map_map]
      rfl
    | _ => rfl
  | _ => rfl

lemma assignments_blank (givenOnly : Bool) (t : Term) :
    (t.blankEntries givenOnly).assignments table givenOnly =
      (t.assignments table givenOnly).map (List.map (·.blank)) := by
  rw [assignments, assignments, assignmentEntries_blank]
  cases t.assignmentEntries givenOnly with
  | error e => rfl
  | ok entries => exact Tablewright.assignments_blank entries

end Term

end Assignments

def Step.blank : Step → Step
  | innerJoin table on => innerJoin table on.blank
  | restrict p => restrict p.blank
  | limit _ => limit (.value (.int 0))
  | values v => values (v.blankEntries false)
  | assign v => assign (v.blankEntries true)
  | c => c

section Steps

lemma eq_ok_of_eq_map {ε α β : Type} {x : Except ε α} {y : Except ε β} {f : α → β} {a : α}
    (hy : y = x.map f) (h : x = .ok a) : y = .ok (f a) := by
  rw [hy, h]
  rfl

namespace Statement

lemma filter_blank (s : Statement) : s.blank.filter = s.filter.map (·.blank) := by
  cases s <;> rfl

lemma filtered_blank (s : Statement) (p : Predicate) :
    s.blank.filtered p.blank = (s.filtered p).blank := by
  cases s <;> rfl

lemma admits_blank (s : Statement) (p : Predicate) :
    s.blank.admits p.blank.columns = s.admits p.columns := by
  rw [p.columns_blank]
  cases s <;> rfl

lemma Moves.blank {s t : Statement} {c : Step} (h : s.Moves c t) :
    s.blank.Moves c.blank t.blank := by
  cases h with
  | source s t => exact .source s.blank t
  | @innerJoin s t on p hnew hp =>
    have hnames : s.blank.tableNames = s.tableNames := congrArg (List.map _) s.tables_blank
    have hjoin : Select.blank { s with joins := s.joins ++ [⟨t, p⟩] } =
        { s.blank with joins := s.blank.joins ++ [⟨t, p.blank⟩] } := by
      simp [Select.blank, Join.blank]
    rw [Statement.blank, Statement.blank, hjoin]
    exact .innerJoin (hnames ▸ hnew) (eq_ok_of_eq_map on.asPredicate_blank hp)
  | @restrict s t p q hp hadmits hq =>
    have hrestrict : Predicate.restrict s.blank.filter p.blank = .ok q.blank := by
      rw [s.filter_blank]
      exact eq_ok_of_eq_map (Predicate.restrict_blank s.filter p) hq
    rw [← s.filtered_blank]
    exact .restrict (eq_ok_of_eq_map t.asPredicate_blank hp) (s.admits_blank p ▸ hadmits) hrestrict
  | sortBy s column descending => exact .sortBy s.blank column descending
  | limit s n => exact .limit s.blank 0
  | @values s v assigned hassigned =>
    exact .values (eq_ok_of_eq_map (Term.assignments_blank false v) hassigned)
  | @assign s v assigned hassigned =>
    exact .assign (eq_ok_of_eq_map (Term.assignments_blank true v) hassigned)
  | returning hwrite hddl =>
    cases s with
    | insert s | update s | delete s => exact .returning rfl rfl
    | select s => cases hwrite
    | ddl d => cases hddl

lemma takes_blank {s t : Statement} {steps : List Step} (h : s.takes steps = .ok t) :
    s.blank.takes (steps.map (·.blank)) = .ok t.blank := by
  induction steps generalizing s with
  | nil => exact congrArg (Except.ok ∘ blank) (Except.ok.inj h)
  | cons c steps ih =>
    obtain ⟨u, hu, h⟩ := takes_cons_eq_ok.mp h
    exact takes_cons_eq_ok.mpr ⟨u.blank, (moves_of_step hu).blank.step_eq_ok, ih h⟩

end Statement

end Steps

def Opening.build (o : Opening) (steps : List Step) : Except Failure Statement :=
  ((Statement.start o).mapError .build).bind (·.takes steps)

structure Compiled.Alike (c d : Compiled) : Prop where
  sql : c.sql = d.sql
  columns : c.columns = d.columns
  returnsRows : c.returnsRows = d.returnsRows
  isWrite : c.isWrite = d.isWrite
  isDdl : c.isDdl = d.isDdl
  slots : c.slots.map (fun i => (i.position, i.name)) = d.slots.map fun i => (i.position, i.name)

def AlikeResults : Except Failure Compiled → Except Failure Compiled → Prop
  | .ok c, .ok d => c.Alike d
  | .error e, .error f => e = f
  | _, _ => False

namespace Statement

lemma alikeResults_of_blank {s t : Statement} (h : s.blank = t.blank) :
    AlikeResults s.compile t.compile := by
  have hflags : ∀ s : Statement, s.blank.returnsRows = s.returnsRows ∧
      s.blank.isWrite = s.isWrite ∧ s.blank.isDdl = s.isDdl := fun s => by
    cases s <;> exact ⟨rfl, rfl, rfl⟩
  have hsql : s.sql.map Sql.blank = t.sql.map Sql.blank := by
    rw [← s.sql_blank, ← t.sql_blank, h]
  rw [compile, compile]
  cases hs : s.sql with
  | error e =>
    cases ht : t.sql with
    | error f =>
      rw [hs, ht] at hsql
      exact Except.error.inj hsql
    | ok sql => simp [hs, ht, Except.map] at hsql
  | ok sql =>
    cases ht : t.sql with
    | error e => simp [hs, ht, Except.map] at hsql
    | ok sql' =>
      rw [hs, ht] at hsql
      have hblank : sql.blank = sql'.blank := Except.ok.inj hsql
      obtain ⟨hrows, hwrite, hddl⟩ := hflags s
      refine ⟨?_, ?_, ?_, ?_, ?_, Sql.slots_eq_of_blank hblank⟩
      · change sql.text = sql'.text
        rw [← sql.text_blank, hblank, sql'.text_blank]
      · change s.resultColumns = t.resultColumns
        rw [← s.resultColumns_blank, h, t.resultColumns_blank]
      · exact hrows.symm.trans (h ▸ (hflags t).1)
      · exact hwrite.symm.trans (h ▸ (hflags t).2.1)
      · exact hddl.symm.trans (h ▸ (hflags t).2.2)

/-- Statements that are built by the same steps, up to the values that end up in placeholders,
compile to the same text with the same slots. No value is ever looked at. -/
theorem compile_alike {o : Opening} {s s' : Statement} {steps steps' : List Step}
    (hsteps : steps.map (·.blank) = steps'.map (·.blank)) (hs : o.build steps = .ok s)
    (hs' : o.build steps' = .ok s') : AlikeResults s.compile s'.compile := by
  obtain ⟨s₀, hstart, hs⟩ := bind_eq_ok_iff.mp hs
  obtain ⟨s₁, hstart', hs'⟩ := bind_eq_ok_iff.mp hs'
  obtain rfl : s₀ = s₁ := Except.ok.inj (hstart.symm.trans hstart')
  have hblank : s₀.blank.takes (steps.map (·.blank)) = .ok s.blank := takes_blank hs
  rw [hsteps, takes_blank hs'] at hblank
  exact alikeResults_of_blank (Except.ok.inj hblank).symm

end Statement

namespace Guarded

def column : Column := { name := "name", kind := .text }

def table : Table := ⟨"users", [column]⟩

def named (name : Value) : Predicate :=
  .comparison ⟨table.column column, .eq, .supply (.param { value := some name })⟩

def selection (name : Value) (count : Int) : List Step :=
  [.source (.table table), .restrict (.predicate (named name)), .limit (.value (.int count))]

def quoted : Value := .text "' OR 1 = 1; DROP TABLE users; --"

end Guarded

open Guarded in
theorem Statement.compile_alike_quoted :
    (∀ v ∈ [.null, quoted],
      Term.compare (.column (table.column column)) (.text "=") (.value v) = .ok (named v)) ∧
    ∃ s s', Opening.build (.select []) (selection .null 1) = .ok s ∧
      Opening.build (.select []) (selection quoted 20) = .ok s' ∧
      AlikeResults s.compile s'.compile := by
  have hsteps : (selection .null 1).map (·.blank) = (selection quoted 20).map (·.blank) := rfl
  have hbuilt : ∃ s s', Opening.build (.select []) (selection .null 1) = .ok s ∧
      Opening.build (.select []) (selection quoted 20) = .ok s' := ⟨_, _, rfl, rfl⟩
  obtain ⟨s, s', hs, hs'⟩ := hbuilt
  exact ⟨fun _ _ => rfl, s, s', hs, hs', compile_alike hsteps hs hs'⟩

end Tablewright
