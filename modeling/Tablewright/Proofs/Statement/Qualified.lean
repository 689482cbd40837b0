import Tablewright.Proofs.Statement.Refused
import Tablewright.Proofs.Statement.Scope

namespace Tablewright

def qualifiers : List Token → List (List Char)
  | [] => []
  | .name n :: rest => if rest.head? = some (.mark '.') then n :: qualifiers rest else qualifiers rest
  | _ :: rest => qualifiers rest

lemma qualifiers_name {n : List Char} {rest : List Token} (h : rest.head? ≠ some (.mark '.')) :
    qualifiers (.name n :: rest) = qualifiers rest := by
  rw [qualifiers, if_neg h]

lemma qualifiers_append (ts : List Token) {us : List Token} (h : us.head? ≠ some (.mark '.')) :
    qualifiers (ts ++ us) = qualifiers ts ++ qualifiers us := by
  induction ts with
  | nil => rfl
  | cons t ts ih =>
    cases t with
    | name n =>
      have hhead : (ts ++ us).head? = some (.mark '.') ↔ ts.head? = some (.mark '.') := by
        cases ts with
        | nil => exact iff_of_false h (by simp)
        | cons t ts => rfl
      simp only [List.cons_append, qualifiers, hhead, ih]
      split <;> rfl
    | _ => exact ih

structure Qualified (good : List Char → Prop) (ts : List Token) : Prop where
  head : ts.head? ≠ some (.mark '.')
  names : ∀ n ∈ qualifiers ts, good n

namespace Qualified

variable {good : List Char → Prop} {ts us : List Token}

lemma append (ht : Qualified good ts) (hu : Qualified good us) : Qualified good (ts ++ us) where
  head := by
    cases ts with
    | nil => exact hu.head
    | cons t ts => exact ht.head
  names := by
    rw [qualifiers_append ts hu.head]
    exact List.forall_mem_append.mpr ⟨ht.names, hu.names⟩

lemma of_no_dot (h : .mark '.' ∉ ts) : Qualified good ts where
  head hhead := h (List.mem_of_mem_head? hhead)
  names := by
    induction ts with
    | nil => exact List.forall_mem_nil _
    | cons t ts ih =>
      rw [List.mem_cons, not_or] at h
      cases t with
      | name n =>
        rw [qualifiers_name fun hhead => h.2 (List.mem_of_mem_head? hhead)]
        exact ih h.2
      | _ => exact ih h.2

lemma nil : Qualified good [] := of_no_dot List.not_mem_nil

lemma cons {t : Token} (ht : t ≠ .mark '.') (hts : Qualified good ts) : Qualified good (t :: ts) :=
  have hsingle : Qualified good [t] := of_no_dot fun hdot => ht (List.mem_singleton.mp hdot).symm
  hsingle.append hts

lemma column {c : TableColumn} (hc : good c.table.toList) : Qualified good c.tokens where
  head := by simp [TableColumn.tokens]
  names := by simpa [TableColumn.tokens, qualifiers] using hc

lemma commas {tss : List (List Token)} (h : ∀ ts ∈ tss, Qualified good ts) :
    Qualified good (commaTokens tss) := by
  induction tss with
  | nil => exact .nil
  | cons ts tss ih =>
    rw [List.forall_mem_cons] at h
    cases tss with
    | nil =>
      rw [commaTokens_singleton]
      exact h.1
    | cons us tss =>
      rw [commaTokens_cons_cons]
      exact h.1.append (.cons (by decide) (ih h.2))

end Qualified

section Conditions

variable {good : List Char → Prop}

lemma Supply.qualified (v : Supply) : Qualified good v.side.tokens := by
  refine .of_no_dot fun hdot => ?_
  have hsupply := v.inSupply_side _ hdot
  cases hsupply

lemma Operand.qualified {o : Operand} (h : ∀ d, o = .column d → good d.table.toList) :
    Qualified good o.side.tokens := by
  cases o with
  | supply v => exact v.qualified
  | column d => exact .column (h d rfl)

lemma Comparison.qualified {c : Comparison} (hleft : good c.column.table.toList)
    (hright : ∀ d, c.operand = .column d → good d.table.toList) :
    Qualified good c.atom.tokens := by
  have hoperator : Qualified good c.operator.tokens := by
    refine .of_no_dot ?_
    cases c.operator <;> decide
  exact ((Qualified.column hleft).append hoperator).append (Operand.qualified hright)

namespace Predicate

lemma qualified_join {k : Connective} {tss : List (List Token)}
    (h : ∀ ts ∈ tss, Qualified good ts) : Qualified good (joinAllTokens k tss) := by
  have hconnective : k.token ≠ .mark '.' := by
    cases k <;> decide
  have hrest : ∀ {tss : List (List Token)}, (∀ ts ∈ tss, Qualified good ts) →
      Qualified good (tss.flatMap fun us => k.token :: us) := by
    intro tss h
    induction tss with
    | nil => exact .nil
    | cons ts tss ih =>
      rw [List.forall_mem_cons] at h
      exact (h.1.cons hconnective).append (ih h.2)
  cases tss with
  | nil => exact .nil
  | cons ts tss =>
    rw [List.forall_mem_cons] at h
    exact h.1.append (hrest h.2)

lemma qualified_embrace {within : Option Connective} {k : Connective} {ts : List Token}
    (h : Qualified good ts) : Qualified good (embraceTokens within k ts) := by
  rw [embraceTokens]
  split
  · exact (h.append (.of_no_dot (by decide))).cons (by decide)
  · exact h

mutual

lemma qualified (within : Option Connective) : (p : Predicate) →
    (∀ c, .ok c ∈ p.columns → good c.table.toList) → Qualified good (p.tokens within)
  | comparison c, h => by
    rw [tokens]
    rw [columns] at h
    refine Comparison.qualified (h c.column List.mem_cons_self) fun d hd => h d ?_
    rw [hd]
    exact List.mem_cons_of_mem _ List.mem_cons_self
  | group k items, h => by
    rw [tokens]
    rw [columns] at h
    exact qualified_embrace (qualified_join (qualified_members k items h))
  | stray v, _ => by
    rw [tokens]
    exact .nil

lemma qualified_members (k : Connective) : (items : List Predicate) →
    (∀ c, .ok c ∈ columnsOf items → good c.table.toList) →
    ∀ ts ∈ memberTokens k items, Qualified good ts
  | [], _ => by
    rw [memberTokens]
    exact List.forall_mem_nil _
  | p :: rest, h => by
    rw [columnsOf] at h
    rw [memberTokens, List.forall_mem_cons]
    exact ⟨qualified (some k) p fun c hc => h c (List.mem_append_left _ hc),
      qualified_members k rest fun c hc => h c (List.mem_append_right _ hc)⟩

end

end Predicate

end Conditions

section Clauses

variable {good : List Char → Prop}

lemma SelectItem.qualified {i : SelectItem} (h : ∀ c ∈ i.column?, good c.table.toList) :
    Qualified good i.tokens := by
  cases i with
  | column c => exact .column (h c rfl)
  | count c =>
    obtain ⟨column, label⟩ := c
    have htarget : Qualified good (tokens.targetTokens column) := by
      cases column with
      | none => exact .of_no_dot (by decide)
      | some c => exact .column (h c rfl)
    have hlabel : Qualified good [.mark ')', .keyword "AS", .name label.toList] :=
      .of_no_dot (by simp [Token.keyword])
    exact ((htarget.append hlabel).cons (by decide)).cons (by decide)

lemma SortKey.qualified {k : SortKey} (h : good k.column.table.toList) :
    Qualified good k.tokens := by
  refine (Qualified.column h).append (.of_no_dot ?_)
  cases k.descending <;> decide

lemma qualified_joins {joins : List Join}
    (h : ∀ j ∈ joins, ∀ c, .ok c ∈ j.on.columns → good c.table.toList) :
    Qualified good (joinsTokens joins) := by
  induction joins with
  | nil => exact .nil
  | cons j joins ih =>
    rw [List.forall_mem_cons] at h
    have hopening : Qualified good [.keyword "INNER", .keyword "JOIN", .name j.table.name.toList,
        .keyword "ON"] := .of_no_dot (by simp [Token.keyword])
    exact (hopening.append (j.on.qualified none h.1)).append (ih h.2)

lemma qualified_filter {filter : Option Predicate}
    (h : ∀ p ∈ filter, ∀ c, .ok c ∈ p.columns → good c.table.toList) :
    Qualified good (filterTokens filter) := by
  cases filter with
  | none => exact .nil
  | some p => exact (p.qualified none (h p rfl)).cons (by decide)

lemma qualified_sorting {sorting : List SortKey}
    (h : ∀ k ∈ sorting, good k.column.table.toList) : Qualified good (sortingTokens sorting) := by
  cases sorting with
  | nil => exact .nil
  | cons k sorting =>
    have hkeys := Qualified.commas (List.forall_mem_map.mpr fun k hk => SortKey.qualified (h k hk))
    exact (hkeys.cons (by decide)).cons (by decide)

lemma qualified_returning (returning : Bool) : Qualified good (returningTokens returning) := by
  refine .of_no_dot ?_
  cases returning <;> decide

lemma Select.qualified {s : Select}
    (hitems : ∀ i ∈ s.resultItems, ∀ c ∈ i.column?, good c.table.toList)
    (hmentioned : ∀ c, .ok c ∈ s.mentioned → good c.table.toList) : Qualified good s.tokens := by
  have hconditions : ∀ p ∈ s.joins.map (·.on) ++ s.filter.toList, ∀ c, .ok c ∈ p.columns →
      good c.table.toList := fun p hp c hc =>
    hmentioned c (Select.mem_mentioned.mpr (Or.inr (Or.inl ⟨p, hp, hc⟩)))
  have hselected : Qualified good (commaTokens (s.resultItems.map (·.tokens))) :=
    .commas (List.forall_mem_map.mpr fun i hi => SelectItem.qualified (hitems i hi))
  have hsource : Qualified good (s.source.toList.map fun t => .name t.name.toList) :=
    .of_no_dot (by simp)
  have hjoins : Qualified good (joinsTokens s.joins) := qualified_joins fun j hj =>
    hconditions j.on (List.mem_append_left _ (List.mem_map_of_mem hj))
  have hfilter : Qualified good (filterTokens s.filter) := qualified_filter fun p hp =>
    hconditions p (List.mem_append_right _ (Option.mem_toList.mpr hp))
  have hsorting : Qualified good (sortingTokens s.sorting) := qualified_sorting fun k hk =>
    hmentioned k.column (Select.mem_mentioned.mpr (Or.inr (Or.inr ⟨k, hk, rfl⟩)))
  have hlimit : Qualified good (limitTokens s.limit) := by
    refine .of_no_dot ?_
    cases s.limit <;> simp [limitTokens, Token.keyword]
  have hclauses := hjoins.append (hfilter.append (hsorting.append hlimit))
  exact (hselected.append ((hsource.append hclauses).cons (by decide))).cons (by decide)

lemma Update.qualified {s : Update}
    (h : ∀ p ∈ s.filter, ∀ c, .ok c ∈ p.columns → good c.table.toList) :
    Qualified good s.tokens := by
  have hsets : Qualified good (commaTokens (s.assignments.map fun a =>
      .name a.1.name.toList :: .relation ['='] :: a.2.side.tokens)) :=
    .commas (List.forall_mem_map.mpr fun a _ =>
      (a.2.qualified.cons (by decide)).cons (by simp))
  have hclauses := (qualified_filter h).append (qualified_returning s.returning)
  exact (((hsets.append hclauses).cons (by decide)).cons (by simp)).cons (by decide)

lemma Delete.qualified {s : Delete}
    (h : ∀ p ∈ s.filter, ∀ c, .ok c ∈ p.columns → good c.table.toList) :
    Qualified good s.tokens := by
  have hclauses := (qualified_filter h).append (qualified_returning s.returning)
  exact ((hclauses.cons (by simp)).cons (by decide)).cons (by decide)

end Clauses

section Texts

def changedTable? : List Token → Option (List Char)
  | t :: .name n :: _ => if t = .keyword "UPDATE" then some n else none
  | _ => none

def mentionedTables (ts : List Token) : List (List Char) :=
  (changedTable? ts).toList ++ namedTables ts ++ qualifiers ts

lemma namedTables_filter_returning (filter : Option Predicate) (returning : Bool) :
    namedTables (filterTokens filter ++ returningTokens returning) = [] := by
  rw [namedTables_append (disjoint_filterTokens filter (by decide) (by decide))]
  cases returning <;> rfl

namespace Select

variable {s : Select}

lemma inScope_mentioned {source : Table} (h : s.check = .ok source) :
    ∀ c, .ok c ∈ s.mentioned → c.table ∈ s.tableNames := by
  rw [check, check_eq_ok h] at h
  obtain ⟨_, hscope, -⟩ := map_eq_ok_iff.mp h
  intro c hc
  obtain ⟨d, hd, hin⟩ := checkScope_eq_ok_iff.mp hscope _ hc
  exact Except.ok.inj hd ▸ hin

lemma inScope_resultItems (h : ∀ c, .ok c ∈ s.mentioned → c.table ∈ s.tableNames) :
    ∀ i ∈ s.resultItems, ∀ c ∈ i.column?, c.table ∈ s.tableNames := by
  intro i hi c hc
  rw [resultItems] at hi
  split at hi
  · obtain ⟨t, ht, hi⟩ := List.mem_flatMap.mp hi
    obtain ⟨d, hd, rfl⟩ := List.mem_map.mp hi
    obtain rfl := Option.some.inj hc
    rw [Table.table_of_mem hd]
    exact List.mem_map_of_mem ht
  · exact h c (mem_mentioned.mpr (Or.inl ⟨c, ⟨i, hi, hc⟩, rfl⟩))

lemma qualifiers_subset {d : Compiled} (h : (Statement.select s).compile = .ok d) :
    qualifiers (Tablewright.tokens d.sql) ⊆ namedTables (Tablewright.tokens d.sql) := by
  obtain ⟨sql, hsql, -⟩ := map_eq_ok_iff.mp h
  obtain ⟨source, -, -, hcheck, -⟩ := sql_eq_ok hsql
  have hsource := check_eq_ok hcheck
  have hmentioned := inScope_mentioned hcheck
  have hqualified : Qualified (· ∈ s.tableNames.map (·.toList)) s.opened.tokens := by
    refine Select.qualified (fun i hi c hc => ?_) fun c hc => ?_
    · rw [s.resultItems_opened] at hi
      exact List.mem_map_of_mem (inScope_resultItems hmentioned i hi c hc)
    · rw [s.mentioned_opened] at hc
      exact List.mem_map_of_mem (hmentioned c hc)
  have hnamed : namedTables s.opened.tokens = s.tableNames.map (·.toList) := by
    rw [namedTables_tokens (s := s.opened) hsource, tableNames, s.tables_opened]
    rfl
  rw [Statement.tokens_compile rfl h, Statement.opened, Statement.tokens, hnamed]
  exact hqualified.names

end Select

lemma sole_filter_opened {filter : Option Predicate} {t : Table}
    (h : ∀ x ∈ filter.toList.flatMap (·.columns), ∃ c, x = .ok c ∧ c.table ∈ [t.name]) :
    ∀ p ∈ filter.map (·.opened), ∀ c, .ok c ∈ p.columns → c.table.toList = t.name.toList := by
  intro p hp c hc
  obtain ⟨q, hq, rfl⟩ := Option.map_eq_some_iff.mp hp
  rw [q.columns_opened] at hc
  obtain ⟨d, hd, hin⟩ := h _ (List.mem_flatMap.mpr ⟨q, Option.mem_toList.mpr hq, hc⟩)
  rw [Except.ok.inj hd, List.mem_singleton.mp hin]

lemma Update.mentionedTables_tokens {s : Update}
    (h : ∀ x ∈ s.filter.toList.flatMap (·.columns), ∃ c, x = .ok c ∧ c.table ∈ [s.table.name]) :
    ∀ n ∈ mentionedTables s.opened.tokens, n = s.table.name.toList := by
  have hqualified : Qualified (· = s.table.name.toList) s.opened.tokens :=
    Update.qualified (sole_filter_opened h)
  have hsets : (commaTokens (s.assignments.map fun a =>
      .name a.1.name.toList :: .relation ['='] :: a.2.side.tokens)).Disjoint
      [.keyword "FROM", .keyword "JOIN"] := disjoint_setTokens s.assignments (by decide)
  have hnamed : namedTables s.opened.tokens = [] := by
    rw [tokens, namedTables_cons (by decide), namedTables_cons (by simp [Token.keyword]),
      namedTables_cons (by decide)]
    exact (namedTables_append hsets _).trans (namedTables_filter_returning _ _)
  rw [mentionedTables, hnamed, List.append_nil]
  exact List.forall_mem_cons.mpr ⟨rfl, hqualified.names⟩

lemma Delete.mentionedTables_tokens {s : Delete}
    (h : ∀ x ∈ s.filter.toList.flatMap (·.columns), ∃ c, x = .ok c ∧ c.table ∈ [s.table.name]) :
    ∀ n ∈ mentionedTables s.opened.tokens, n = s.table.name.toList := by
  have hqualified : Qualified (· = s.table.name.toList) s.opened.tokens :=
    Delete.qualified (sole_filter_opened h)
  have hnamed : namedTables s.opened.tokens = [s.table.name.toList] := by
    rw [tokens, namedTables_cons (by decide), namedTables_from, namedTables_filter_returning]
    rfl
  rw [mentionedTables, hnamed]
  exact List.forall_mem_cons.mpr ⟨rfl, hqualified.names⟩

end Texts

end Tablewright
