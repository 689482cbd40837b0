import Tablewright.Proofs.Statement.Alike
import Tablewright.Proofs.Statement.Qualified

namespace Tablewright

inductive Predicate.Mentions (c : TableColumn) : Predicate → Prop
  | left {operator : Operator} {right : Operand} : Mentions c (.comparison ⟨c, operator, right⟩)
  | right {d : TableColumn} {operator : Operator} :
      Mentions c (.comparison ⟨d, operator, .column c⟩)
  | member {k : Connective} {items : List Predicate} {p : Predicate} : p ∈ items → Mentions c p →
      Mentions c (.group k items)

inductive Select.Uses (s : Select) (c : TableColumn) : Prop
  | item : .column c ∈ s.items → Uses s c
  | counted {label : String} : .count ⟨some c, label⟩ ∈ s.items → Uses s c
  | join {j : Join} : j ∈ s.joins → j.on.Mentions c → Uses s c
  | filter {p : Predicate} : p ∈ s.filter → p.Mentions c → Uses s c
  | sorting {k : SortKey} : k ∈ s.sorting → k.column = c → Uses s c

namespace Predicate

variable {c : TableColumn}

lemma Mentions.mem_columns {p : Predicate} (h : p.Mentions c) : .ok c ∈ p.columns := by
  induction h with
  | left =>
    rw [columns]
    exact List.mem_cons_self
  | right =>
    rw [columns]
    exact List.mem_cons_of_mem _ List.mem_cons_self
  | member hp _ ih =>
    rw [columns, columnsOf_eq]
    exact List.mem_flatMap.mpr ⟨_, hp, ih⟩

mutual

lemma mentions_of_mem_columns : (p : Predicate) → .ok c ∈ p.columns → p.Mentions c
  | comparison ⟨d, operator, operand⟩, h => by
    rw [columns] at h
    rcases List.mem_cons.mp h with h | h
    · obtain rfl := Except.ok.inj h
      exact .left
    · cases operand with
      | supply v => cases h
      | column e =>
        obtain rfl := Except.ok.inj (List.mem_singleton.mp h)
        exact .right
  | group k items, h => by
    rw [columns] at h
    obtain ⟨p, hp, hc⟩ := mentions_of_mem_columnsOf items h
    exact .member hp hc
  | stray v, h => by
    rw [columns] at h
    cases List.mem_singleton.mp h

lemma mentions_of_mem_columnsOf : (items : List Predicate) → .ok c ∈ columnsOf items →
    ∃ p ∈ items, p.Mentions c
  | [], h => by
    rw [columnsOf] at h
    cases h
  | p :: rest, h => by
    rw [columnsOf] at h
    rcases List.mem_append.mp h with h | h
    · exact ⟨p, List.mem_cons_self, mentions_of_mem_columns p h⟩
    · obtain ⟨q, hq, hc⟩ := mentions_of_mem_columnsOf rest h
      exact ⟨q, List.mem_cons_of_mem p hq, hc⟩

end

lemma mem_columns_iff {p : Predicate} : .ok c ∈ p.columns ↔ p.Mentions c :=
  ⟨mentions_of_mem_columns p, Mentions.mem_columns⟩

end Predicate

lemma Select.mem_mentioned_iff_uses {s : Select} {c : TableColumn} :
    .ok c ∈ s.mentioned ↔ s.Uses c := by
  rw [mem_mentioned]
  constructor
  · rintro (⟨d, ⟨i, hi, hd⟩, hc⟩ | ⟨p, hp, hc⟩ | ⟨k, hk, hc⟩)
    · obtain rfl := Except.ok.inj hc
      cases i with
      | column e =>
        obtain rfl := Option.some.inj hd
        exact .item hi
      | count e =>
        obtain ⟨column, label⟩ := e
        obtain rfl : column = some c := hd
        exact .counted hi
    · rcases List.mem_append.mp hp with hp | hp
      · obtain ⟨j, hj, rfl⟩ := List.mem_map.mp hp
        exact .join hj (Predicate.mem_columns_iff.mp hc)
      · exact .filter (Option.mem_toList.mp hp) (Predicate.mem_columns_iff.mp hc)
    · exact .sorting hk (Except.ok.inj hc).symm
  · rintro (hi | hi | ⟨hj, hc⟩ | ⟨hp, hc⟩ | ⟨hk, rfl⟩)
    · exact Or.inl ⟨c, ⟨_, hi, rfl⟩, rfl⟩
    · exact Or.inl ⟨c, ⟨_, hi, rfl⟩, rfl⟩
    · exact Or.inr (Or.inl ⟨_, List.mem_append_left _ (List.mem_map_of_mem hj), hc.mem_columns⟩)
    · exact Or.inr (Or.inl ⟨_, List.mem_append_right _ (Option.mem_toList.mpr hp), hc.mem_columns⟩)
    · exact Or.inr (Or.inr ⟨_, hk, rfl⟩)

lemma Select.forall_mentioned {s : Select} {good : Except Fault TableColumn → Prop} :
    (∀ x ∈ s.mentioned, good x) ↔ (∀ i ∈ s.items, ∀ c ∈ i.column?, good (.ok c)) ∧
      (∀ j ∈ s.joins, ∀ x ∈ j.on.columns, good x) ∧
        (∀ x ∈ s.filter.toList.flatMap (·.columns), good x) ∧
          ∀ k ∈ s.sorting, good (.ok k.column) := by
  have hitems : (∀ x ∈ (s.itemColumns ++ s.countedColumns).map .ok, good x) ↔
      ∀ i ∈ s.items, ∀ c ∈ i.column?, good (.ok c) := by
    simp only [List.forall_mem_map, mem_itemColumns, forall_exists_index, and_imp]
    exact ⟨fun h i hi c hc => h c i hi hc, fun h c i hi hc => h i hi c hc⟩
  have hjoins : (∀ x ∈ s.joins.flatMap (·.on.columns), good x) ↔
      ∀ j ∈ s.joins, ∀ x ∈ j.on.columns, good x := by
    simp only [List.mem_flatMap, forall_exists_index, and_imp]
    exact ⟨fun h j hj x hx => h x j hj hx, fun h x j hj hx => h j hj x hx⟩
  rw [mentioned, List.forall_mem_append, List.forall_mem_append, List.forall_mem_append, hitems,
    hjoins, List.forall_mem_map, and_assoc, and_assoc]

lemma forall_columns_restrict {filter : Option Predicate} {p q : Predicate}
    {good : Except Fault TableColumn → Prop} (h : Predicate.restrict filter p = .ok q)
    (hfilter : ∀ x ∈ filter.toList.flatMap (·.columns), good x) (hp : ∀ x ∈ p.columns, good x) :
    ∀ x ∈ (some q).toList.flatMap (·.columns), good x := by
  rw [Option.toList_some, List.flatMap_singleton, Predicate.columns_restrict h]
  exact List.forall_mem_append.mpr ⟨hfilter, hp⟩

namespace Schema

variable {schema : Schema} {tables : List Table}

def Outside (schema : Schema) (tables : List Table) (c : TableColumn) : Prop :=
  ∃ t ∈ schema.tables.values, c ∈ t.allColumns ∧ t ∉ tables

structure Covers (schema : Schema) (tables : List Table)
    (columns : List (Except Fault TableColumn)) : Prop where
  tables : ∀ t ∈ tables, t ∈ schema.tables.values
  columns : ∀ x ∈ columns, ∃ c, x = .ok c ∧ schema.Declares c

lemma Distinct.outside_iff (h : schema.Distinct) (htables : ∀ t ∈ tables, t ∈ schema.tables.values)
    {c : TableColumn} (hc : schema.Declares c) :
    schema.Outside tables c ↔ c.table ∉ tables.map (·.name) := by
  constructor
  · rintro ⟨t, ht, hct, hout⟩ hmem
    obtain ⟨u, hu, hut⟩ := List.mem_map.mp hmem
    exact hout (h.table_eq (htables u hu) ht (hut.trans (Table.table_of_mem hct)) ▸ hu)
  · obtain ⟨t, ht, hct⟩ := hc
    intro hout
    rw [Table.table_of_mem hct] at hout
    exact ⟨t, ht, hct, fun hmem => hout (List.mem_map_of_mem hmem)⟩

lemma Covers.checkScope_iff (h : schema.Distinct) {columns : List (Except Fault TableColumn)}
    (hcovers : schema.Covers tables columns) :
    (∃ n, checkScope (tables.map (·.name)) columns = .error (.build (.tableNotInScope n))) ↔
      ∃ c, .ok c ∈ columns ∧ schema.Outside tables c := by
  have houtside : ∀ c, .ok c ∈ columns →
      (schema.Outside tables c ↔ c.table ∉ tables.map (·.name)) := fun c hc => by
    obtain ⟨d, hd, hdeclares⟩ := hcovers.columns _ hc
    exact h.outside_iff hcovers.tables (Except.ok.inj hd ▸ hdeclares)
  constructor
  · rintro ⟨n, hn⟩
    obtain ⟨f, hf, -⟩ | ⟨c, -, hc, hout⟩ := checkScope_eq_error hn
    · cases hf
    · exact ⟨c, hc, (houtside c hc).mpr hout⟩
  · rintro ⟨c, hc, hout⟩
    cases hcheck : checkScope (tables.map (·.name)) columns with
    | ok =>
      obtain ⟨d, hd, hin⟩ := checkScope_eq_ok_iff.mp hcheck _ hc
      exact absurd (Except.ok.inj hd ▸ hin) ((houtside c hc).mp hout)
    | error e =>
      obtain ⟨f, -, hf⟩ | ⟨d, rfl, -, -⟩ := checkScope_eq_error hcheck
      · obtain ⟨d, hd, -⟩ := hcovers.columns _ hf
        cases hd
      · exact ⟨_, rfl⟩

end Schema

section Given

namespace Term

def tables : Term → List Table
  | table t => [t]
  | _ => []

def mentioned : Term → List (Except Fault TableColumn)
  | table t => t.allColumns.map .ok
  | column c => [.ok c]
  | count c => c.column.toList.map .ok
  | predicate p => p.columns
  | _ => []

/-- A term made of what a schema declares. A condition may be of any shape and have any operators
and values in it. -/
def Within (schema : Schema) (t : Term) : Prop := schema.Covers t.tables t.mentioned

lemma mem_mentioned_of_items {t : Term} {i : SelectItem} (hi : i ∈ t.items) {c : TableColumn}
    (hc : c ∈ i.column?) : .ok c ∈ t.mentioned := by
  cases t with
  | table t =>
    obtain ⟨d, hd, rfl⟩ := List.mem_map.mp hi
    exact List.mem_map_of_mem (Option.some.inj hc ▸ hd)
  | column d =>
    obtain rfl := List.mem_singleton.mp hi
    exact List.mem_singleton.mpr (congrArg Except.ok (Option.some.inj hc).symm)
  | count d =>
    obtain rfl := List.mem_singleton.mp hi
    exact List.mem_map_of_mem (Option.mem_toList.mpr hc)
  | value v | supply v | predicate p | map entries | model m => cases hi

end Term

def Opening.terms : Opening → List Term
  | select items => items
  | insert table | update table | delete table => [table]
  | ddl _ => []

def Step.terms : Step → List Term
  | source table => [table]
  | innerJoin table on => [table, on]
  | restrict p => [p]
  | sortBy column _ => [column]
  | limit _ | values _ | assign _ | returning => []

namespace Statement

def target? : Statement → Option Table
  | update s => some s.table
  | delete s => some s.table
  | _ => none

def tables : Statement → List Table
  | select s => s.tables
  | insert s => [s.table]
  | update s => [s.table]
  | delete s => [s.table]
  | ddl _ => []

def mentioned : Statement → List (Except Fault TableColumn)
  | select s => s.mentioned
  | update s => s.filter.toList.flatMap (·.columns)
  | delete s => s.filter.toList.flatMap (·.columns)
  | _ => []

lemma Moves.tables_subset {s s' : Statement} {c : Step} (h : s.Moves c s') :
    s'.tables ⊆ s.tables ++ c.terms.flatMap (·.tables) := by
  intro t ht
  cases h with
  | source s u =>
    rcases List.mem_cons.mp ht with rfl | ht
    · exact List.mem_append_right _ List.mem_cons_self
    · exact List.mem_append_left _ (List.mem_append_right _ ht)
  | @innerJoin s u on p =>
    have ht : t ∈ s.source.toList ++ (s.joins ++ [Join.mk u p]).map Join.table := ht
    rw [List.map_append, ← List.append_assoc] at ht
    rcases List.mem_append.mp ht with ht | ht
    · exact List.mem_append_left _ ht
    · obtain rfl := List.mem_singleton.mp ht
      exact List.mem_append_right _ List.mem_cons_self
  | restrict _ _ _ | returning _ _ =>
    refine List.mem_append_left _ ?_
    cases s <;> exact ht
  | sortBy _ _ _ | limit _ _ | values _ | assign _ => exact List.mem_append_left _ ht

variable {schema : Schema} {s s' : Statement} {good : Except Fault TableColumn → Prop}

lemma Moves.forall_mentioned {c : Step} (h : s.Moves c s') (hs : ∀ x ∈ s.mentioned, good x)
    (hc : ∀ t ∈ c.terms, ∀ x ∈ t.mentioned, good x) : ∀ x ∈ s'.mentioned, good x := by
  cases h with
  | @innerJoin s u on p _ hp =>
    obtain ⟨rfl, -⟩ := Term.asPredicate_eq_ok_iff.mp hp
    obtain ⟨hitems, hjoins, hrest⟩ := Select.forall_mentioned.mp hs
    have hon : ∀ j ∈ [Join.mk u p], ∀ x ∈ j.on.columns, good x :=
      List.forall_mem_singleton.mpr (hc (.predicate p) (List.mem_cons_of_mem _ List.mem_cons_self))
    exact Select.forall_mentioned.mpr ⟨hitems, List.forall_mem_append.mpr ⟨hjoins, hon⟩, hrest⟩
  | @restrict s _ p q hp hadmits hq =>
    obtain ⟨rfl, -⟩ := Term.asPredicate_eq_ok_iff.mp hp
    have hcolumns := hc (.predicate p) List.mem_cons_self
    cases s with
    | select s =>
      obtain ⟨hitems, hjoins, hfilter, hsorting⟩ := Select.forall_mentioned.mp hs
      have hfiltered := forall_columns_restrict hq hfilter hcolumns
      exact Select.forall_mentioned.mpr ⟨hitems, hjoins, hfiltered, hsorting⟩
    | update s | delete s => exact forall_columns_restrict hq hs hcolumns
    | insert s | ddl d => cases hadmits
  | sortBy s d descending =>
    obtain ⟨hitems, hjoins, hfilter, hsorting⟩ := Select.forall_mentioned.mp hs
    have hd : ∀ k ∈ [SortKey.mk d descending], good (.ok k.column) :=
      List.forall_mem_singleton.mpr (hc (.column d) List.mem_cons_self _ List.mem_cons_self)
    exact Select.forall_mentioned.mpr
      ⟨hitems, hjoins, hfilter, List.forall_mem_append.mpr ⟨hsorting, hd⟩⟩
  | returning _ _ =>
    cases s <;> exact hs
  | source _ _ | limit _ _ | values _ | assign _ => exact hs

def Sole (s : Statement) : Prop :=
  ∀ t ∈ s.target?, ∀ x ∈ s.mentioned, ∃ c, x = .ok c ∧ c.table ∈ [t.name]

lemma Sole.moves (hs : s.Sole) {c : Step} (h : s.Moves c s') : s'.Sole := by
  cases h with
  | @restrict s _ p q _ hadmits hq =>
    intro t ht
    cases s with
    | update s | delete s =>
      obtain rfl := Option.some.inj ht
      exact forall_columns_restrict hq (hs _ rfl) (checkScope_eq_ok_iff.mp hadmits)
    | select s | insert s | ddl d => cases ht
  | returning _ _ =>
    cases s <;> exact hs
  | source _ _ | innerJoin _ _ | sortBy _ _ _ | limit _ _ | values _ => exact fun _ ht => nomatch ht
  | assign _ => exact hs

def Within (schema : Schema) (s : Statement) : Prop := schema.Covers s.tables s.mentioned

lemma Within.moves (hs : s.Within schema) {c : Step} (hc : ∀ t ∈ c.terms, t.Within schema)
    (h : s.Moves c s') : s'.Within schema where
  tables t ht := by
    rcases List.mem_append.mp (h.tables_subset ht) with ht | ht
    · exact hs.tables t ht
    · obtain ⟨u, hu, ht⟩ := List.mem_flatMap.mp ht
      exact (hc u hu).tables t ht
  columns := h.forall_mentioned hs.columns fun t ht => (hc t ht).columns

lemma within_start {o : Opening} (ho : ∀ t ∈ o.terms, t.Within schema) (h : start o = .ok s) :
    s.Within schema ∧ s.Sole := by
  cases o with
  | select terms =>
    obtain ⟨items, hitems, rfl⟩ := map_eq_ok_iff.mp h
    refine ⟨⟨List.forall_mem_nil _, Select.forall_mentioned.mpr ⟨fun i hi c hc => ?_,
      List.forall_mem_nil _, List.forall_mem_nil _, List.forall_mem_nil _⟩⟩, fun _ ht => nomatch ht⟩
    have hi : i ∈ items := hi
    rw [items_of_selectItems hitems] at hi
    obtain ⟨t, ht, hi⟩ := List.mem_flatMap.mp hi
    exact (ho t ht).columns _ (Term.mem_mentioned_of_items hi hc)
  | insert t =>
    obtain ⟨table, ht, rfl⟩ := map_eq_ok_iff.mp h
    obtain rfl := Term.eq_table_of_asTable ht
    exact ⟨⟨(ho _ List.mem_cons_self).tables, List.forall_mem_nil _⟩, fun _ ht => nomatch ht⟩
  | update t | delete t =>
    obtain ⟨table, ht, rfl⟩ := map_eq_ok_iff.mp h
    obtain rfl := Term.eq_table_of_asTable ht
    exact ⟨⟨(ho _ List.mem_cons_self).tables, List.forall_mem_nil _⟩,
      fun _ _ => List.forall_mem_nil _⟩
  | ddl d =>
    obtain rfl := Except.ok.inj h
    exact ⟨⟨List.forall_mem_nil _, List.forall_mem_nil _⟩, fun _ ht => nomatch ht⟩

lemma within_build {o : Opening} {steps : List Step}
    (hterms : ∀ t ∈ o.terms ++ steps.flatMap (·.terms), t.Within schema)
    (h : o.build steps = .ok s) : s.Within schema ∧ s.Sole := by
  rw [List.forall_mem_append] at hterms
  obtain ⟨s₀, hstart, hs⟩ := bind_eq_ok_iff.mp h
  have hopened := within_start hterms.1 (mapError_eq_ok_iff.mp hstart)
  refine takes_induction (P := fun s => s.Within schema ∧ s.Sole) (fun c hc hs h => ?_) hopened hs
  exact ⟨hs.1.moves (fun t ht => hterms.2 t (List.mem_flatMap.mpr ⟨c, hc, ht⟩)) h, hs.2.moves h⟩

end Statement

end Given

section Refusals

lemma Select.compile_eq_tableNotInScope_iff {s : Select} (hs : s.source.isSome) {n : String} :
    (Statement.select s).compile = .error (.build (.tableNotInScope n)) ↔
      checkScope s.tableNames s.mentioned = .error (.build (.tableNotInScope n)) := by
  obtain ⟨source, hsource⟩ := Option.isSome_iff_exists.mp hs
  constructor
  · intro h
    obtain hcheck | hconcerns := Select.sql_eq_error (map_eq_error_iff.mp h)
    · obtain ⟨hnone, -⟩ | hscope := Select.check_eq_error hcheck
      · rw [hsource] at hnone
        cases hnone
      · exact hscope
    · obtain ⟨reason, h⟩ | ⟨⟨f, h⟩, -⟩ := hconcerns <;> cases h
  · intro h
    have hcheck : s.check = .error (.build (.tableNotInScope n)) := by
      rw [check, hsource]
      exact map_eq_error_iff.mpr h
    exact map_eq_error_iff.mpr (seq_eq_error_iff.mpr (Or.inl hcheck))

lemma Statement.restrict_eq_tableNotInScope_iff {s : Statement} {t : Table} (ht : t ∈ s.target?)
    {p : Predicate} (hp : ∀ v, p ≠ .stray v) {n : String} :
    s.step (.restrict (.predicate p)) = .error (.build (.tableNotInScope n)) ↔
      checkScope [t.name] p.columns = .error (.build (.tableNotInScope n)) := by
  have hadmits : s.admits p.columns = checkScope [t.name] p.columns := by
    cases s with
    | update s | delete s => exact Option.some.inj ht ▸ rfl
    | select s | insert s | ddl d => cases ht
  rw [step_restrict hp, hadmits, bind_eq_error_iff]
  refine or_iff_left ?_
  rintro ⟨-, -, h⟩
  obtain ⟨e, he, hbuild⟩ := mapError_eq_error_iff.mp (map_eq_error_iff.mp h)
  obtain ⟨reason, rfl⟩ := Predicate.restrict_eq_error he
  cases hbuild

end Refusals

namespace Statement

/-- A column is out of scope where it is of a table of the schema that is not among the tables of a
selection, or is not the table of a write; nothing else is ever refused as such. So the text of a
selection qualifies columns by the tables that it selects from, and the text of a write mentions
its table only. -/
theorem scope_exact {schema : Schema} {tables : List Table} {indexes : List Index}
    (hschema : Schema.build tables indexes = .ok schema) {o : Opening} {steps : List Step}
    (hterms : ∀ t ∈ o.terms ++ steps.flatMap (·.terms), t.Within schema) {s : Statement}
    (hs : o.build steps = .ok s) :
    (∀ v : Select, s = .select v → v.source.isSome →
      ((∃ n, s.compile = .error (.build (.tableNotInScope n))) ↔
        ∃ c, v.Uses c ∧ schema.Outside v.tables c) ∧
      ∀ d, s.compile = .ok d →
        qualifiers (Tablewright.tokens d.sql) ⊆ namedTables (Tablewright.tokens d.sql)) ∧
    ∀ t ∈ s.target?,
      (∀ p, (Term.predicate p).Within schema →
        ((∃ n, s.step (.restrict (.predicate p)) = .error (.build (.tableNotInScope n))) ↔
          ∃ c, p.Mentions c ∧ schema.Outside [t] c)) ∧
      ∀ d, s.compile = .ok d → ∀ n ∈ mentionedTables (Tablewright.tokens d.sql), n = t.name.toList := by
  obtain ⟨hwithin, hsole⟩ := within_build hterms hs
  have hdistinct := Schema.distinct_of_build hschema
  refine ⟨?_, fun t ht => ⟨fun p hp => ?_, fun d hd => ?_⟩⟩
  · rintro v rfl hsource
    refine ⟨?_, fun d hd => Select.qualifiers_subset hd⟩
    simp only [Select.compile_eq_tableNotInScope_iff hsource, ← Select.mem_mentioned_iff_uses]
    exact hwithin.checkScope_iff hdistinct
  · have hstray : ∀ v, p ≠ .stray v := by
      rintro v rfl
      obtain ⟨c, hc, -⟩ := hp.columns (.error (Predicate.strayFault v)) (by
        rw [Term.mentioned, Predicate.columns]
        exact List.mem_cons_self)
      cases hc
    have htable : t ∈ s.tables := by
      cases s with
      | update s | delete s => exact List.mem_singleton.mpr (Option.some.inj ht).symm
      | select s | insert s | ddl d => cases ht
    have hcovers : schema.Covers [t] p.columns :=
      ⟨List.forall_mem_singleton.mpr (hwithin.tables t htable), hp.columns⟩
    simp only [restrict_eq_tableNotInScope_iff ht hstray, ← Predicate.mem_columns_iff]
    exact hcovers.checkScope_iff hdistinct
  · cases s with
    | update s =>
      obtain rfl := Option.some.inj ht
      rw [tokens_compile rfl hd]
      exact Update.mentionedTables_tokens (hsole s.table rfl)
    | delete s =>
      obtain rfl := Option.some.inj ht
      rw [tokens_compile rfl hd]
      exact Delete.mentionedTables_tokens (hsole s.table rfl)
    | select s | insert s | ddl d => cases ht

end Statement

namespace Astray

open Moved (key keyed isOne)

def either : Predicate :=
  .group .or [isOne "a",
    .comparison ⟨(keyed "a").column key, .eq, .column ((keyed "b").column key)⟩]

def selection : List Step := [.source (.table (keyed "a")), .restrict (.predicate either)]

lemma columns_either : either.columns =
    [.ok ((keyed "a").column key), .ok ((keyed "a").column key), .ok ((keyed "b").column key)] := by
  simp [either, isOne, Predicate.columns, Predicate.columnsOf, Predicate.Operand.columns]

lemma declares_key {name : String} (hname : name ∈ ["a", "b", "c"]) :
    Moved.schema.Declares ((keyed name).column key) :=
  ⟨keyed name, List.mem_map_of_mem hname, List.mem_singleton_self _⟩

lemma within_either : (Term.predicate either).Within Moved.schema := by
  refine ⟨List.forall_mem_nil _, fun x hx => ?_⟩
  rw [Term.mentioned, columns_either] at hx
  simp only [List.mem_cons, List.not_mem_nil, or_false] at hx
  rcases hx with rfl | rfl | rfl
  · exact ⟨_, rfl, declares_key (by decide)⟩
  · exact ⟨_, rfl, declares_key (by decide)⟩
  · exact ⟨_, rfl, declares_key (by decide)⟩

lemma within_keyed {name : String} (hname : name ∈ ["a", "b", "c"]) :
    (Term.table (keyed name)).Within Moved.schema :=
  ⟨List.forall_mem_singleton.mpr (List.mem_map_of_mem hname),
    List.forall_mem_singleton.mpr ⟨_, rfl, declares_key hname⟩⟩

lemma mentions_either : either.Mentions ((keyed "b").column key) :=
  .member (List.mem_cons_of_mem _ List.mem_cons_self) .right

lemma outside : Moved.schema.Outside [keyed "a"] ((keyed "b").column key) :=
  ⟨keyed "b", List.mem_cons_of_mem _ List.mem_cons_self, List.mem_singleton_self _, by decide⟩

end Astray

open Astray Moved in
theorem Statement.scope_exact_astray :
    Schema.build Moved.tables [] = .ok Moved.schema ∧
    ∃ v t, (Opening.select []).build selection = .ok (.select v) ∧
      (Opening.delete (.table (keyed "a"))).build [] = .ok t ∧
      (∃ n, (Statement.select v).compile = .error (.build (.tableNotInScope n))) ∧
      ∃ n, t.step (.restrict (.predicate either)) = .error (.build (.tableNotInScope n)) := by
  have hschema : Schema.build Moved.tables [] = .ok Moved.schema := rfl
  have hbuilt : ∃ v t, (Opening.select []).build selection = .ok (.select v) ∧
      (Opening.delete (.table (keyed "a"))).build [] = .ok t := ⟨_, _, rfl, rfl⟩
  obtain ⟨v, t, hv, ht⟩ := hbuilt
  have hselection : ∀ t ∈ (Opening.select []).terms ++ selection.flatMap (·.terms),
      t.Within Moved.schema :=
    List.forall_mem_cons.mpr ⟨within_keyed (by decide), List.forall_mem_singleton.mpr within_either⟩
  have hdeletion : ∀ t ∈ (Opening.delete (.table (keyed "a"))).terms ++ [].flatMap (Step.terms ·),
      t.Within Moved.schema := List.forall_mem_singleton.mpr (within_keyed (by decide))
  have hselected := (Statement.scope_exact hschema hselection hv).1 v rfl
  have hdeleted := (Statement.scope_exact hschema hdeletion ht).2 (keyed "a")
  obtain rfl := Statement.select.inj (Except.ok.inj hv)
  obtain rfl := Except.ok.inj ht
  exact ⟨hschema, _, _, hv, ht, (hselected rfl).1.mpr ⟨_, .filter rfl mentions_either, outside⟩,
    ((hdeleted rfl).1 either within_either).mpr ⟨_, mentions_either, outside⟩⟩

end Tablewright
