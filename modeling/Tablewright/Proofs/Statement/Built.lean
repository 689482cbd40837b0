import Tablewright.Proofs.Schema.Declared
import Tablewright.Proofs.Statement.Moves
import Tablewright.Proofs.Statement.Shape

namespace Tablewright

lemma Table.table_of_mem {t : Table} {c : TableColumn} (h : c ∈ t.allColumns) :
    c.table = t.name := by
  obtain ⟨column, -, rfl⟩ := List.mem_map.mp h
  rfl

namespace Schema

variable {schema : Schema}

def Declares (schema : Schema) (c : TableColumn) : Prop :=
  ∃ t ∈ schema.tables.values, c ∈ t.allColumns

structure Distinct (schema : Schema) : Prop where
  tables : (schema.tables.values.map (·.name)).Nodup
  columns : ∀ t ∈ schema.tables.values, t.columnNames.Nodup

lemma distinct_of_build {tables : List Table} {indexes : List Index}
    (h : build tables indexes = .ok schema) : schema.Distinct := by
  obtain ⟨hconsistent, rfl⟩ := build_eq_ok_iff.mp h
  have htables := hconsistent.values_tables
  refine ⟨by rw [htables]; exact hconsistent.distinct_tables, fun t ht => ?_⟩
  rw [htables] at ht
  have hn : (t.columnNames.map Text.fold).Nodup := by
    rw [Table.columnNames, List.map_map]
    exact (hconsistent.sound t ht).columns
  exact List.Nodup.of_map _ hn

namespace Distinct

lemma table_eq (h : schema.Distinct) {t u : Table} (ht : t ∈ schema.tables.values)
    (hu : u ∈ schema.tables.values) (hname : t.name = u.name) : t = u :=
  List.inj_on_of_nodup_map h.tables ht hu hname

lemma column_eq (h : schema.Distinct) {c d : TableColumn} (hc : schema.Declares c)
    (hd : schema.Declares d) (htable : c.table = d.table) (hname : c.name = d.name) : c = d := by
  obtain ⟨t, ht, hc⟩ := hc
  obtain ⟨u, hu, hd⟩ := hd
  obtain ⟨column, hcolumn, rfl⟩ := List.mem_map.mp hc
  obtain ⟨column', hcolumn', rfl⟩ := List.mem_map.mp hd
  obtain rfl := h.table_eq ht hu htable
  obtain rfl := List.inj_on_of_nodup_map (h.columns t ht) hcolumn hcolumn' hname
  rfl

end Distinct

end Schema

namespace Predicate

variable {schema : Schema} {k : Connective} {p : Predicate} {ps items : List Predicate}

mutual

def Neat (schema : Schema) : Predicate → Prop
  | comparison c =>
    schema.Declares c.column ∧ ∀ d, c.operand = .column d → schema.Declares d
  | group k items => 2 ≤ items.length ∧ AllNeat schema k items
  | stray _ => False

def AllNeat (schema : Schema) (k : Connective) : List Predicate → Prop
  | [] => True
  | p :: rest => p.Neat schema ∧ p.connective? ≠ some k ∧ AllNeat schema k rest

end

lemma allNeat_iff : AllNeat schema k items ↔
    ∀ p ∈ items, p.Neat schema ∧ p.connective? ≠ some k := by
  induction items with
  | nil => simp [AllNeat]
  | cons p items ih =>
    rw [AllNeat, ih, List.forall_mem_cons, and_assoc]

lemma Neat.not_stray (h : p.Neat schema) (v : Value) : p ≠ stray v := by
  rintro rfl
  rw [Neat] at h
  exact h

mutual

lemma neat_iff : (p : Predicate) →
    (p.Neat schema ↔ p.Flat ∧ p.Wide ∧ ∀ c, .ok c ∈ p.columns → schema.Declares c)
  | comparison c => by
    have hcolumns : ∀ d, Except.ok d ∈ (comparison c).columns ↔
        d = c.column ∨ c.operand = .column d := by
      intro d
      rw [columns]
      cases c.operand <;> simp [Operand.columns, eq_comm]
    simp only [Neat, hcolumns, or_imp, forall_and, forall_eq]
    exact ⟨fun h => ⟨.comparison c, .comparison c, h⟩, fun h => h.2.2⟩
  | group k items => by
    have hitems := neat_iff_of_mem items
    simp only [Neat, allNeat_iff, every_group_iff, columns, columnsOf_eq, List.mem_flatMap,
      forall_exists_index, and_imp]
    constructor
    · rintro ⟨hlength, h⟩
      have hneat := fun p hp => (hitems p hp).mp (h p hp).1
      exact ⟨⟨fun p hp => (h p hp).2, fun p hp => (hneat p hp).1⟩,
        ⟨hlength, fun p hp => (hneat p hp).2.1⟩, fun c p hp hc => (hneat p hp).2.2 c hc⟩
    · rintro ⟨⟨hkinds, hflat⟩, ⟨hlength, hwide⟩, hcolumns⟩
      refine ⟨hlength, fun p hp => ⟨(hitems p hp).mpr ?_, hkinds p hp⟩⟩
      exact ⟨hflat p hp, hwide p hp, fun c hc => hcolumns c p hp hc⟩
  | stray v => ⟨fun h => absurd rfl (h.not_stray v), fun h => absurd rfl (h.1.not_stray v)⟩

lemma neat_iff_of_mem : (items : List Predicate) → ∀ p ∈ items,
    (p.Neat schema ↔ p.Flat ∧ p.Wide ∧ ∀ c, .ok c ∈ p.columns → schema.Declares c)
  | [] => List.forall_mem_nil _
  | p :: rest => List.forall_mem_cons.mpr ⟨neat_iff p, neat_iff_of_mem rest⟩

end

lemma neat_combine (hps : ∀ p ∈ ps, p.Neat schema) (h : combine k ps = .ok p) : p.Neat schema := by
  simp only [neat_iff] at hps ⊢
  refine ⟨flat_combine (fun q hq => (hps q hq).1) h, wide_combine (fun q hq => (hps q hq).2.1) h,
    fun c hc => ?_⟩
  rw [columns_combine h, columnsOf_eq] at hc
  obtain ⟨q, hq, hc⟩ := List.mem_flatMap.mp hc
  exact (hps q hq).2.2 c hc

lemma neat_restrict {filter : Option Predicate} {q : Predicate}
    (hfilter : ∀ f ∈ filter, f.Neat schema) (hp : p.Neat schema)
    (h : restrict filter p = .ok q) : q.Neat schema := by
  cases filter with
  | none => exact Except.ok.inj h ▸ hp
  | some f =>
    refine neat_combine (fun r hr => ?_) h
    rcases List.mem_cons.mp hr with rfl | hr
    · exact hfilter r rfl
    · exact List.mem_singleton.mp hr ▸ hp

inductive Made (schema : Schema) : Predicate → Prop
  | compare {c : TableColumn} {operator : Value} {right : Term} {p : Predicate} :
      schema.Declares c → (∀ d, right = .column d → schema.Declares d) →
      Term.compare (.column c) operator right = .ok p → Made schema p
  | combine {k : Connective} {ps : List Predicate} {p : Predicate} :
      (∀ q ∈ ps, Made schema q) → Term.combine k (ps.map .predicate) = .ok (.predicate p) →
      Made schema p

lemma neat_compare {c : TableColumn} {operator : Value} {right : Term}
    (hc : schema.Declares c) (hright : ∀ d, right = .column d → schema.Declares d)
    (h : Term.compare (.column c) operator right = .ok p) : p.Neat schema := by
  simp only [Term.compare] at h
  split at h
  · cases h
  · next heq hcolumn _ =>
    obtain rfl := Term.column.inj hcolumn
    split at h
    · next op _ =>
      obtain rfl := Except.ok.inj h
      rw [Neat]
      refine ⟨hc, fun d hd => hright d ?_⟩
      cases right with
      | column d' => exact congrArg Term.column (Operand.column.inj hd)
      | _ => cases hd
    · cases h
  · cases h

lemma Made.neat (h : p.Made schema) : p.Neat schema := by
  induction h with
  | compare hc hright h => exact neat_compare hc hright h
  | @combine k ps p _ h ih =>
    rw [Term.combine_predicates] at h
    obtain ⟨q, hq, hp⟩ := map_eq_ok_iff.mp h
    have hneat := neat_combine ih hq
    rw [Term.ofMember_of_not_stray hneat.not_stray] at hp
    exact Term.predicate.inj hp ▸ hneat

end Predicate

/-- Terms over a schema. What is no table, column, count or condition stands for values only. -/
def Term.Over (schema : Schema) : Term → Prop
  | .table t => t ∈ schema.tables.values
  | .column c => schema.Declares c
  | .count c => ∀ d ∈ c.column, schema.Declares d
  | .predicate p => p.Made schema
  | _ => True

def Opening.Over (schema : Schema) : Opening → Prop
  | select items => ∀ t ∈ items, t.Over schema
  | insert table | update table | delete table => table.Over schema
  | ddl _ => False

def Step.Over (schema : Schema) : Step → Prop
  | source table => table.Over schema
  | innerJoin table on => table.Over schema ∧ on.Over schema
  | restrict p => p.Over schema
  | sortBy column _ => column.Over schema
  | limit _ | values _ | assign _ | returning => True

namespace Statement

inductive Built (schema : Schema) : Statement → Prop
  | start {o : Opening} {s : Statement} : o.Over schema → start o = .ok s → Built schema s
  | step {s s' : Statement} {c : Step} :
      Built schema s → c.Over schema → s.step c = .ok s' → Built schema s'

end Statement

def SelectItem.column? : SelectItem → Option TableColumn
  | column c => some c
  | count c => c.column

structure Select.Neat (schema : Schema) (s : Select) : Prop where
  items : ∀ i ∈ s.items, ∀ c ∈ i.column?, schema.Declares c
  tables : ∀ t ∈ s.tables, t ∈ schema.tables.values
  joins : ∀ j ∈ s.joins, j.on.Neat schema
  filter : ∀ p ∈ s.filter, p.Neat schema
  sorting : ∀ k ∈ s.sorting, schema.Declares k.column

structure Insert.Neat (schema : Schema) (s : Insert) : Prop where
  table : s.table ∈ schema.tables.values
  assignments : ∀ a ∈ s.assignments, a.1 ∈ s.table.allColumns

structure Update.Neat (schema : Schema) (s : Update) : Prop where
  table : s.table ∈ schema.tables.values
  assignments : ∀ a ∈ s.assignments, a.1 ∈ s.table.allColumns
  filter : ∀ p ∈ s.filter, p.Neat schema

structure Delete.Neat (schema : Schema) (s : Delete) : Prop where
  table : s.table ∈ schema.tables.values
  filter : ∀ p ∈ s.filter, p.Neat schema

def Statement.Neat (schema : Schema) : Statement → Prop
  | select s => s.Neat schema
  | insert s => s.Neat schema
  | update s => s.Neat schema
  | delete s => s.Neat schema
  | ddl _ => False

section Builder

variable {schema : Schema}

lemma Term.table_of_asTable {t : Term} {table : Table} (h : t.asTable = .ok table)
    (ht : t.Over schema) : table ∈ schema.tables.values := by
  cases t with
  | table u => exact Except.ok.inj h ▸ ht
  | _ => cases h

lemma Term.neat_of_asPredicate {t : Term} {p : Predicate} (h : t.asPredicate = .ok p)
    (ht : t.Over schema) : p.Neat schema := by
  cases t with
  | predicate q =>
    cases q with
    | comparison c | group k items => exact Except.ok.inj h ▸ Predicate.Made.neat ht
    | stray v => cases h
  | _ => cases h

def Term.items : Term → List SelectItem
  | table t => t.allColumns.map .column
  | column c => [.column c]
  | count c => [.count c]
  | _ => []

lemma items_of_selectItems {terms : List Term} {items : List SelectItem}
    (h : selectItems terms = .ok items) : items = terms.flatMap (·.items) := by
  induction terms generalizing items with
  | nil => exact (Except.ok.inj h).symm
  | cons t terms ih =>
    cases t with
    | table t | column c | count c =>
      obtain ⟨here, hhere, h⟩ := seq_eq_ok_iff.mp h
      obtain ⟨others, hothers, h⟩ := seq_eq_ok_iff.mp h
      obtain rfl := Except.ok.inj hhere
      rw [← pure_eq_ok_iff.mp h, ih hothers]
      rfl
    | value v | supply v | predicate p | map entries | model m => cases h

lemma Term.Over.declares_items {t : Term} (ht : t.Over schema) :
    ∀ i ∈ t.items, ∀ c ∈ i.column?, schema.Declares c := by
  cases t with
  | table t => exact List.forall_mem_map.mpr fun c hc d hd => ⟨t, ht, Option.some.inj hd ▸ hc⟩
  | column c => exact List.forall_mem_singleton.mpr fun d hd => Option.some.inj hd ▸ ht
  | count c => exact List.forall_mem_singleton.mpr ht
  | value v | supply v | predicate p | map entries | model m => exact List.forall_mem_nil _

lemma declares_selectItems {terms : List Term} {items : List SelectItem}
    (h : selectItems terms = .ok items) (hterms : ∀ t ∈ terms, t.Over schema) :
    ∀ i ∈ items, ∀ c ∈ i.column?, schema.Declares c := by
  rw [items_of_selectItems h]
  intro i hi
  obtain ⟨t, ht, hi⟩ := List.mem_flatMap.mp hi
  exact (hterms t ht).declares_items i hi

lemma mem_assignments {table : Table} {entries : List (ColumnKey × Supply)}
    {assigned : List Assignment} (h : assignments table entries = .ok assigned) :
    ∀ a ∈ assigned, a.1 ∈ table.allColumns := by
  rw [assignments] at h
  split at h
  · cases h
  · split at h
    · cases h
    · obtain rfl := Except.ok.inj h
      intro a ha
      obtain ⟨c, hc, ha⟩ := List.mem_filterMap.mp ha
      obtain ⟨v, -, rfl⟩ := Option.map_eq_some_iff.mp ha
      exact hc

lemma Term.mem_assignments {table : Table} {givenOnly : Bool} {t : Term}
    {assigned : List Assignment} (h : t.assignments table givenOnly = .ok assigned) :
    ∀ a ∈ assigned, a.1 ∈ table.allColumns := by
  obtain ⟨entries, -, h⟩ := seq_eq_ok_iff.mp h
  exact Tablewright.mem_assignments h

namespace Select.Neat

variable {s : Select} {t : Table} {p : Predicate}

lemma start {items : List SelectItem} (h : ∀ i ∈ items, ∀ c ∈ i.column?, schema.Declares c) :
    (Select.start items).Neat schema :=
  ⟨h, List.forall_mem_nil _, List.forall_mem_nil _, fun _ hp => absurd hp (Option.not_mem_none _),
    List.forall_mem_nil _⟩

lemma selectFrom (h : s.Neat schema) (ht : t ∈ schema.tables.values) :
    (s.selectFrom t).Neat schema := by
  refine { h with tables := fun u hu => ?_ }
  rcases List.mem_cons.mp hu with rfl | hu
  · exact ht
  · exact h.tables u (List.mem_append_right _ hu)

lemma innerJoin (h : s.Neat schema) (ht : t ∈ schema.tables.values) (hp : p.Neat schema) :
    ({ s with joins := s.joins ++ [⟨t, p⟩] } : Select).Neat schema := by
  refine { h with tables := fun u hu => ?_, joins := fun j hj => ?_ }
  · rw [Select.tables, List.map_append, ← List.append_assoc] at hu
    rcases List.mem_append.mp hu with hu | hu
    · exact h.tables u hu
    · exact List.mem_singleton.mp hu ▸ ht
  · rcases List.mem_append.mp hj with hj | hj
    · exact h.joins j hj
    · exact List.mem_singleton.mp hj ▸ hp

end Select.Neat

lemma Statement.Neat.moves {s s' : Statement} {c : Step} (hs : s.Neat schema) (hc : c.Over schema)
    (h : s.Moves c s') : s'.Neat schema := by
  cases h with
  | source s t => exact Select.Neat.selectFrom hs hc
  | innerJoin _ hp => exact Select.Neat.innerJoin hs hc.1 (Term.neat_of_asPredicate hp hc.2)
  | @restrict s _ p _ hp hadmits hq =>
    have hfilter : ∀ {f : Option Predicate} {q : Predicate}, (∀ p ∈ f, p.Neat schema) →
        Predicate.restrict f p = .ok q → ∀ p ∈ some q, p.Neat schema := by
      rintro f q hf hq _ ⟨⟩
      exact Predicate.neat_restrict hf (Term.neat_of_asPredicate hp hc) hq
    cases s with
    | select s => exact { (hs : s.Neat schema) with filter := hfilter hs.filter hq }
    | update s => exact { (hs : s.Neat schema) with filter := hfilter hs.filter hq }
    | delete s => exact { (hs : s.Neat schema) with filter := hfilter hs.filter hq }
    | insert s | ddl d => cases hadmits
  | sortBy s column descending =>
    refine { (hs : s.Neat schema) with sorting := fun k hk => ?_ }
    rcases List.mem_append.mp hk with hk | hk
    · exact hs.sorting k hk
    · exact List.mem_singleton.mp hk ▸ hc
  | limit s n => exact { (hs : s.Neat schema) with }
  | @values s v assigned hassigned =>
    exact { (hs : s.Neat schema) with assignments := Term.mem_assignments hassigned }
  | @assign s v assigned hassigned =>
    exact { (hs : s.Neat schema) with assignments := Term.mem_assignments hassigned }
  | returning hwrite hddl =>
    cases s with
    | select s => cases hwrite
    | insert s => exact { (hs : s.Neat schema) with }
    | update s => exact { (hs : s.Neat schema) with }
    | delete s => exact { (hs : s.Neat schema) with }
    | ddl d => cases hddl

lemma Opening.neat {o : Opening} {s : Statement} (ho : o.Over schema)
    (h : Statement.start o = .ok s) : s.Neat schema := by
  cases o with
  | select items =>
    obtain ⟨items, hitems, rfl⟩ := map_eq_ok_iff.mp h
    exact .start (declares_selectItems hitems ho)
  | insert t =>
    obtain ⟨table, ht, rfl⟩ := map_eq_ok_iff.mp h
    exact ⟨Term.table_of_asTable ht ho, List.forall_mem_nil _⟩
  | update t =>
    obtain ⟨table, ht, rfl⟩ := map_eq_ok_iff.mp h
    exact ⟨Term.table_of_asTable ht ho, List.forall_mem_nil _, fun _ hp => absurd hp (Option.not_mem_none _)⟩
  | delete t =>
    obtain ⟨table, ht, rfl⟩ := map_eq_ok_iff.mp h
    exact ⟨Term.table_of_asTable ht ho, fun _ hp => absurd hp (Option.not_mem_none _)⟩
  | ddl d => exact ho.elim

lemma Statement.Built.neat {s : Statement} (h : s.Built schema) : s.Neat schema := by
  induction h with
  | start ho h => exact Opening.neat ho h
  | step _ hc h ih => exact ih.moves hc (Statement.moves_of_step h)

end Builder

end Tablewright
