import Tablewright.Proofs.Statement.Opened

namespace Tablewright

lemma checkScope_eq_error {scope : List String} {xs : List (Except Fault TableColumn)} {e : Failure}
    (h : checkScope scope xs = .error e) :
    (∃ f, e = .fault f ∧ .error f ∈ xs) ∨
      ∃ c, e = .build (.tableNotInScope c.table) ∧ .ok c ∈ xs ∧ c.table ∉ scope := by
  induction xs with
  | nil => cases h
  | cons x xs ih =>
    cases x with
    | error f => exact Or.inl ⟨f, (Except.error.inj h).symm, List.mem_cons_self⟩
    | ok c =>
      rw [checkScope] at h
      split at h
      · obtain ⟨f, hf, hmem⟩ | ⟨d, hd, hmem, hout⟩ := ih h
        · exact Or.inl ⟨f, hf, List.mem_cons_of_mem _ hmem⟩
        · exact Or.inr ⟨d, hd, List.mem_cons_of_mem _ hmem, hout⟩
      · next hout =>
        exact Or.inr ⟨c, (Except.error.inj h).symm, List.mem_cons_self, by simpa using hout⟩

lemma checkScope_eq_ok_iff {scope : List String} {xs : List (Except Fault TableColumn)} :
    checkScope scope xs = .ok () ↔ ∀ x ∈ xs, ∃ c, x = .ok c ∧ c.table ∈ scope := by
  induction xs with
  | nil => simp [checkScope]
  | cons x xs ih =>
    rw [List.forall_mem_cons, ← ih]
    cases x with
    | error f => simp [checkScope]
    | ok c => by_cases hin : c.table ∈ scope <;> simp [checkScope, hin]

def Failure.Concerns (e : Failure) (ps : List Predicate) : Prop :=
  (∃ reason, e = .build (.invalid reason)) ∨ (∃ f, e = .fault f) ∧ ∃ p ∈ ps, ¬ p.Whole

namespace Failure.Concerns

variable {e : Failure} {ps qs : List Predicate}

lemma mono (h : e.Concerns ps) (hsub : ps ⊆ qs) : e.Concerns qs := by
  obtain hinvalid | ⟨hfault, p, hp, hstray⟩ := h
  · exact Or.inl hinvalid
  · exact Or.inr ⟨hfault, p, hsub hp, hstray⟩

lemma group (h : e.Concerns ps) (k : Connective) : e.Concerns [.group k ps] := by
  obtain hinvalid | ⟨hfault, p, hp, hstray⟩ := h
  · exact Or.inl hinvalid
  · refine Or.inr ⟨hfault, _, List.mem_cons_self, fun hwhole => hstray ?_⟩
    exact (Predicate.every_group_iff.mp hwhole).2 p hp

lemma stray (f : Fault) (v : Value) : (Failure.fault f).Concerns [.stray v] :=
  Or.inr ⟨⟨f, rfl⟩, _, List.mem_cons_self, nofun⟩

lemma of_supply {v : Supply} (h : v.sql = .error e) : e.Concerns ps := by
  cases v with
  | param p => cases h
  | literal v =>
    have hliteral : (v.literal.mapError Failure.build) = .error e := map_eq_error_iff.mp h
    cases v with
    | real x =>
      rw [Value.literal] at hliteral
      split at hliteral
      · cases hliteral
      · exact Or.inl ⟨_, (Except.error.inj hliteral).symm⟩
    | null | bool b | int n | text s | blob bytes => cases hliteral
    | _ => exact Or.inl ⟨_, (Except.error.inj hliteral).symm⟩

lemma of_comparison {c : Comparison} (h : c.sql = .error e) : e.Concerns ps := by
  have hoperand := map_eq_error_iff.mp h
  obtain ⟨column, operator, operand⟩ := c
  cases operand with
  | supply v => exact of_supply hoperand
  | column d => cases hoperand

end Failure.Concerns

namespace Predicate

open Failure (Concerns)

mutual

lemma concerns_of_sql {within : Option Connective} {e : Failure} :
    (p : Predicate) → p.sql within = .error e → e.Concerns [p]
  | comparison c, h => by
    rw [sql] at h
    exact .of_comparison h
  | group k items, h => by
    rw [sql] at h
    exact (concerns_of_memberSql items (map_eq_error_iff.mp h)).group k
  | stray v, h => by
    rw [sql] at h
    exact Except.error.inj h ▸ .stray _ v

lemma concerns_of_memberSql {k : Connective} {e : Failure} :
    (items : List Predicate) → memberSql k items = .error e → e.Concerns items
  | [], h => by
    rw [memberSql] at h
    cases h
  | comparison c :: rest, h => by
    rw [memberSql] at h
    obtain h | ⟨here, -, h⟩ := bind_eq_error_iff.mp h
    · exact .of_comparison h
    · exact (concerns_of_memberSql rest (map_eq_error_iff.mp h)).mono (List.subset_cons_self _ _)
  | group k' items :: rest, h => by
    have hhere : e.Concerns [group k' items] → e.Concerns (group k' items :: rest) := fun h =>
      h.mono (List.cons_subset_cons _ (List.nil_subset rest))
    have hrest : memberSql k rest = .error e → e.Concerns (group k' items :: rest) := fun h =>
      (concerns_of_memberSql rest h).mono (List.subset_cons_self _ _)
    rw [memberSql] at h
    split at h
    · obtain h | ⟨here, -, h⟩ := bind_eq_error_iff.mp h
      · exact hhere ((concerns_of_memberSql items h).group k')
      · exact hrest (map_eq_error_iff.mp h)
    · obtain h | ⟨here, -, h⟩ := bind_eq_error_iff.mp h
      · exact hhere (concerns_of_sql (group k' items) h)
      · exact hrest (map_eq_error_iff.mp h)
  | stray v :: rest, h => by
    rw [memberSql] at h
    have hhere : e.Concerns [stray v] := Except.error.inj h ▸ .stray _ v
    exact hhere.mono (List.cons_subset_cons _ (List.nil_subset rest))

end

lemma Whole.exists_columns {p : Predicate} (h : p.Whole) : ∀ x ∈ p.columns, ∃ c, x = .ok c := by
  induction h with
  | comparison c =>
    rw [columns]
    exact List.forall_mem_map.mpr fun c _ => ⟨c, rfl⟩
  | group _ _ ih =>
    rw [columns, columnsOf_eq]
    intro x hx
    obtain ⟨p, hp, hx⟩ := List.mem_flatMap.mp hx
    exact ih p hp x hx

mutual

lemma whole_of_columns : (p : Predicate) → (∀ x ∈ p.columns, ∃ c, x = .ok c) → p.Whole
  | comparison c, _ => .comparison c
  | group k items, h => by
    rw [columns] at h
    exact .group trivial (whole_of_columnsOf items h)
  | stray v, h => by
    rw [columns] at h
    obtain ⟨c, hc⟩ := h _ List.mem_cons_self
    cases hc

lemma whole_of_columnsOf : (items : List Predicate) → (∀ x ∈ columnsOf items, ∃ c, x = .ok c) →
    ∀ p ∈ items, p.Whole
  | [], _ => List.forall_mem_nil _
  | p :: rest, h => by
    rw [columnsOf, List.forall_mem_append] at h
    exact List.forall_mem_cons.mpr ⟨whole_of_columns p h.1, whole_of_columnsOf rest h.2⟩

end

end Predicate

variable {e : Failure}

lemma concerns_of_filterSql {filter : Option Predicate} (h : filterSql filter = .error e) :
    e.Concerns filter.toList := by
  cases filter with
  | none => cases h
  | some p => exact p.concerns_of_sql (map_eq_error_iff.mp h)

lemma concerns_of_joinsSql {joins : List Join} (h : joinsSql joins = .error e) :
    e.Concerns (joins.map (·.on)) := by
  induction joins with
  | nil => cases h
  | cons j joins ih =>
    obtain h | ⟨on, -, h⟩ := seq_eq_error_iff.mp h
    · exact (j.on.concerns_of_sql h).mono (List.cons_subset_cons _ (List.nil_subset _))
    · obtain h | ⟨others, -, h⟩ := seq_eq_error_iff.mp h
      · exact (ih h).mono (List.subset_cons_self _ _)
      · cases h

lemma concerns_of_suppliesSql {supplies : List Supply} (h : suppliesSql supplies = .error e) :
    e.Concerns [] := by
  induction supplies with
  | nil => cases h
  | cons v supplies ih =>
    obtain h | ⟨here, -, h⟩ := seq_eq_error_iff.mp h
    · exact .of_supply h
    · obtain h | ⟨others, -, h⟩ := seq_eq_error_iff.mp h
      · exact ih h
      · cases h

namespace Select

lemma mem_itemColumns {s : Select} {c : TableColumn} :
    c ∈ s.itemColumns ++ s.countedColumns ↔ ∃ i ∈ s.items, c ∈ i.column? := by
  rw [List.mem_append, itemColumns, countedColumns, List.mem_filterMap, List.mem_filterMap,
    ← exists_or]
  refine exists_congr fun i => ?_
  cases i <;> simp [SelectItem.column?]

lemma mem_mentioned {s : Select} {x : Except Fault TableColumn} : x ∈ s.mentioned ↔
    (∃ c, (∃ i ∈ s.items, c ∈ i.column?) ∧ x = .ok c) ∨
      (∃ p ∈ s.joins.map (·.on) ++ s.filter.toList, x ∈ p.columns) ∨
        ∃ k ∈ s.sorting, x = .ok k.column := by
  have hconditions : x ∈ s.joins.flatMap (·.on.columns) ++ s.filter.toList.flatMap (·.columns) ↔
      ∃ p ∈ s.joins.map (·.on) ++ s.filter.toList, x ∈ p.columns := by
    rw [← List.mem_flatMap, List.flatMap_append, List.flatMap_map]
  rw [mentioned, List.append_assoc _ (s.joins.flatMap _), List.mem_append, List.mem_append,
    hconditions, or_assoc, List.mem_map, List.mem_map]
  simp only [mem_itemColumns, eq_comm]

lemma check_eq_error {s : Select} (h : s.check = .error e) :
    (s.source = none ∧ e = .build (.incomplete "SELECT" "a FROM table")) ∨
      checkScope s.tableNames s.mentioned = .error e := by
  rw [check] at h
  split at h
  · next hsource => exact Or.inl ⟨hsource, (Except.error.inj h).symm⟩
  · exact Or.inr (map_eq_error_iff.mp h)

lemma sql_eq_error {s : Select} (h : s.sql = .error e) :
    s.check = .error e ∨ e.Concerns (s.joins.map (·.on) ++ s.filter.toList) := by
  obtain h | ⟨source, -, h⟩ := seq_eq_error_iff.mp h
  · exact Or.inl h
  · obtain h | ⟨joins, -, h⟩ := seq_eq_error_iff.mp h
    · exact Or.inr ((concerns_of_joinsSql h).mono (List.subset_append_left _ _))
    · obtain h | ⟨filter, -, h⟩ := seq_eq_error_iff.mp h
      · exact Or.inr ((concerns_of_filterSql h).mono (List.subset_append_right _ _))
      · cases h

end Select

lemma Insert.sql_eq_error {s : Insert} (h : s.sql = .error e) :
    e = .build (.incomplete "INSERT" "values") ∨ e.Concerns [] := by
  rw [Insert.sql] at h
  split at h
  · exact Or.inl (Except.error.inj h).symm
  · obtain h | ⟨values, -, h⟩ := seq_eq_error_iff.mp h
    · exact Or.inr (concerns_of_suppliesSql h)
    · cases h

lemma Update.sql_eq_error {s : Update} (h : s.sql = .error e) :
    e = .build (.incomplete "UPDATE" "SET values") ∨ e.Concerns [] ∨ e.Concerns s.filter.toList := by
  rw [Update.sql] at h
  split at h
  · exact Or.inl (Except.error.inj h).symm
  · obtain h | ⟨values, -, h⟩ := seq_eq_error_iff.mp h
    · exact Or.inr (Or.inl (concerns_of_suppliesSql h))
    · obtain h | ⟨filter, -, h⟩ := seq_eq_error_iff.mp h
      · exact Or.inr (Or.inr (concerns_of_filterSql h))
      · cases h

namespace Statement

lemma compile_eq_error {s : Statement} (h : s.compile = .error e) :
    (∃ b, e = .build b) ∨ (∃ f, e = .fault f) ∧ ∃ p ∈ s.conditions, ¬ p.Whole := by
  have hconcerns : ∀ {ps : List Predicate}, e.Concerns ps → ps ⊆ s.conditions →
      (∃ b, e = .build b) ∨ (∃ f, e = .fault f) ∧ ∃ p ∈ s.conditions, ¬ p.Whole := by
    intro ps hps hsub
    obtain ⟨reason, rfl⟩ | hstray := hps.mono hsub
    · exact Or.inl ⟨_, rfl⟩
    · exact Or.inr hstray
  have hsql : s.sql = .error e := map_eq_error_iff.mp h
  cases s with
  | select s =>
    -- items and sort keys are columns, so what is none was mentioned by a condition
    obtain hcheck | hclauses := Select.sql_eq_error hsql
    · obtain ⟨-, rfl⟩ | hscope := Select.check_eq_error hcheck
      · exact Or.inl ⟨_, rfl⟩
      · obtain ⟨f, rfl, hf⟩ | ⟨c, rfl, -, -⟩ := checkScope_eq_error hscope
        · obtain ⟨c, -, hc⟩ | ⟨p, hp, hcolumns⟩ | ⟨k, -, hk⟩ := Select.mem_mentioned.mp hf
          · cases hc
          · refine Or.inr ⟨⟨f, rfl⟩, p, hp, fun hwhole => ?_⟩
            obtain ⟨c, hc⟩ := hwhole.exists_columns _ hcolumns
            cases hc
          · cases hk
        · exact Or.inl ⟨_, rfl⟩
    · exact hconcerns hclauses (List.Subset.refl _)
  | insert s =>
    obtain rfl | hvalues := Insert.sql_eq_error hsql
    · exact Or.inl ⟨_, rfl⟩
    · exact hconcerns hvalues (List.nil_subset _)
  | update s =>
    obtain rfl | hvalues | hfilter := Update.sql_eq_error hsql
    · exact Or.inl ⟨_, rfl⟩
    · exact hconcerns hvalues (List.nil_subset _)
    · exact hconcerns hfilter (List.Subset.refl _)
  | delete s =>
    obtain h | ⟨filter, -, h⟩ := seq_eq_error_iff.mp hsql
    · exact hconcerns (concerns_of_filterSql h) (List.Subset.refl _)
    · cases h
  | ddl d => cases hsql

end Statement

end Tablewright
