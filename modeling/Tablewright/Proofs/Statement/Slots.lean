import Tablewright.Proofs.Statement.Placeholder

namespace Tablewright

def Supply.params : Supply → List Param
  | .param p => [p]
  | .literal _ => []

def Operand.params : Operand → List Param
  | .supply s => s.params
  | .column _ => []

namespace Predicate

mutual

def params : Predicate → List Param
  | comparison c => c.operand.params
  | group _ items => paramsOf items
  | stray _ => []

def paramsOf : List Predicate → List Param
  | [] => []
  | p :: rest => p.params ++ paramsOf rest

end

end Predicate

def filterParams (filter : Option Predicate) : List Param := filter.toList.flatMap (·.params)

def limitParams (limit : Option Nat) : List Param :=
  limit.toList.map fun (n : Nat) => { value := some (.int n) }

def Statement.params : Statement → List Param
  | .select s => s.joins.flatMap (·.on.params) ++ filterParams s.filter ++ limitParams s.limit
  | .insert s => s.assignments.flatMap (·.2.params)
  | .update s => s.assignments.flatMap (·.2.params) ++ filterParams s.filter
  | .delete s => filterParams s.filter
  | .ddl _ => []

structure Sql.Renders (s : Sql) (params : List Param) : Prop where
  allSealed : s.AllSealed
  params_eq : s.params = params

namespace Sql.Renders

variable {s t : Sql} {ps qs : List Param}

lemma nil : Renders [] [] := ⟨.nil, rfl⟩

lemma append (hs : s.Renders ps) (ht : t.Renders qs) : (s ++ t).Renders (ps ++ qs) := by
  refine ⟨hs.allSealed.append ht.allSealed, ?_⟩
  rw [params_append, hs.params_eq, ht.params_eq]

lemma word {w : String} (hw : Plain w.toList) (hs : s.Renders ps) : Renders (.word w :: s) ps :=
  ⟨hs.allSealed.word hw, hs.params_eq⟩

lemma name {n : String} (hs : s.Renders ps) : Renders (.name n :: s) ps :=
  ⟨hs.allSealed.name, hs.params_eq⟩

lemma hole {p : Param} (hs : s.Renders ps) : Renders (.hole p :: s) (p :: ps) := by
  refine ⟨hs.allSealed.hole, ?_⟩
  rw [← hs.params_eq]
  rfl

lemma separated {w : String} {parts : List Sql} (hw : Plain w.toList)
    (h : Renders parts.flatten ps) : Renders (Sql.separated w parts) ps := by
  refine ⟨AllSealed.separated hw fun s hs p hp => ?_, ?_⟩
  · exact h.allSealed p (List.mem_flatten.mpr ⟨s, hs, hp⟩)
  · rw [params_separated, ← h.params_eq, params, List.filterMap_flatten, List.flatMap]
    rfl

lemma commas {parts : List Sql} (h : Renders parts.flatten ps) : Renders (Sql.commas parts) ps :=
  h.separated (by decide)

lemma commas_map {α : Type} {render : α → Sql} {xs : List α}
    (h : ∀ x ∈ xs, (render x).Renders []) : Renders (Sql.commas (xs.map render)) [] := by
  refine commas ?_
  induction xs with
  | nil => exact nil
  | cons x xs ih =>
    exact (h x List.mem_cons_self).append (ih fun y hy => h y (List.mem_cons_of_mem _ hy))

end Sql.Renders

open Sql (Renders)

lemma TableColumn.renders (c : TableColumn) : c.sql.Renders [] :=
  ((Renders.nil.name).word (by decide)).name

lemma Supply.renders {v : Supply} {s : Sql} (h : v.sql = .ok s) : s.Renders v.params := by
  have hsql := Supply.sql_eq_ok_iff.mp h
  cases v with
  | param p =>
    obtain rfl := hsql
    exact Renders.nil.hole
  | literal v =>
    obtain ⟨text, htext, rfl⟩ := hsql
    have hsealed := (literalText_of_literal htext).sealed
    exact ⟨Sql.AllSealed.nil.cons fun _ => hsealed, rfl⟩

lemma Operand.renders {o : Operand} {s : Sql} (h : o.sql = .ok s) : s.Renders o.params := by
  cases o with
  | supply v => exact Supply.renders h
  | column c =>
    obtain rfl := Except.ok.inj h
    exact c.renders

lemma Operator.plain_text (o : Operator) : Plain (" " ++ o.text ++ " ").toList := by
  cases o <;> decide

lemma Comparison.renders {c : Comparison} {s : Sql} (h : c.sql = .ok s) :
    s.Renders c.operand.params := by
  obtain ⟨operand, hoperand, rfl⟩ := map_eq_ok_iff.mp h
  exact c.column.renders.append ((Operand.renders hoperand).word c.operator.plain_text)

lemma Connective.plain_keyword (k : Connective) : Plain k.keyword.toList := by
  cases k <;> decide

namespace Predicate

lemma renders_embrace {within : Option Connective} {k : Connective} {s : Sql} {ps : List Param}
    (h : s.Renders ps) : (embrace within k s).Renders ps := by
  rw [embrace]
  split
  · have hclosing : Renders [.word ")"] [] := Renders.nil.word (by decide)
    have hbody := (h.append hclosing).word (w := "(") (by decide)
    rwa [List.append_nil] at hbody
  · exact h

mutual

lemma renders {within : Option Connective} {s : Sql} :
    (p : Predicate) → p.sql within = .ok s → s.Renders p.params
  | comparison c, h => by
    rw [sql] at h
    exact Comparison.renders h
  | group k items, h => by
    rw [sql] at h
    obtain ⟨parts, hparts, rfl⟩ := map_eq_ok_iff.mp h
    rw [params]
    exact renders_embrace ((renders_members items hparts).separated k.plain_keyword)
  | stray v, h => by
    rw [sql] at h
    cases h

lemma renders_members {k : Connective} {parts : List Sql} :
    (items : List Predicate) → memberSql k items = .ok parts → Renders parts.flatten (paramsOf items)
  | [], h => by
    rw [memberSql] at h
    obtain rfl := Except.ok.inj h
    exact Renders.nil
  | comparison c :: rest, h => by
    rw [memberSql] at h
    obtain ⟨here, hhere, h⟩ := bind_eq_ok_iff.mp h
    obtain ⟨others, hothers, rfl⟩ := map_eq_ok_iff.mp h
    rw [paramsOf, params]
    exact (Comparison.renders hhere).append (renders_members rest hothers)
  | group k' items :: rest, h => by
    rw [memberSql] at h
    rw [paramsOf, params]
    split at h
    · obtain ⟨here, hhere, h⟩ := bind_eq_ok_iff.mp h
      obtain ⟨others, hothers, rfl⟩ := map_eq_ok_iff.mp h
      rw [List.flatten_append]
      exact (renders_members items hhere).append (renders_members rest hothers)
    · obtain ⟨here, hhere, h⟩ := bind_eq_ok_iff.mp h
      obtain ⟨others, hothers, rfl⟩ := map_eq_ok_iff.mp h
      have hgroup := renders (group k' items) hhere
      rw [params] at hgroup
      exact hgroup.append (renders_members rest hothers)
  | stray v :: rest, h => by
    rw [memberSql] at h
    cases h

end

end Predicate

lemma SelectItem.renders (i : SelectItem) : i.sql.Renders [] := by
  cases i with
  | column c => exact c.renders
  | count c =>
    obtain ⟨column, label⟩ := c
    have hclosing : Renders [.word ") AS ", .name label] [] := (Renders.nil.name).word (by decide)
    cases column with
    | none => exact ((Renders.nil.word (w := "*") (by decide)).append hclosing).word (by decide)
    | some c => exact (c.renders.append hclosing).word (by decide)

lemma SortKey.renders (k : SortKey) : k.sql.Renders [] := by
  refine k.column.renders.append (Renders.nil.word ?_)
  cases k.descending <;> decide

lemma renders_filter {filter : Option Predicate} {s : Sql} (h : filterSql filter = .ok s) :
    s.Renders (filterParams filter) := by
  obtain ⟨rfl, rfl⟩ | ⟨p, condition, rfl, hp, rfl⟩ := filterSql_eq_ok h
  · exact Renders.nil
  · have hcondition := (p.renders hp).word (w := " WHERE ") (by decide)
    rwa [← List.append_nil p.params] at hcondition

lemma renders_joins {joins : List Join} {s : Sql} (h : joinsSql joins = .ok s) :
    s.Renders (joins.flatMap (·.on.params)) := by
  induction joins generalizing s with
  | nil =>
    obtain rfl := Except.ok.inj h
    exact Renders.nil
  | cons j joins ih =>
    obtain ⟨on, others, hon, hothers, rfl⟩ := joinsSql_cons_eq_ok h
    have hjoin := (((j.on.renders hon).word (w := " ON ") (by decide)).name
      (n := j.table.name)).word (w := " INNER JOIN ") (by decide)
    exact hjoin.append (ih hothers)

lemma renders_supplies {supplies : List Supply} {parts : List Sql}
    (h : suppliesSql supplies = .ok parts) :
    Renders parts.flatten (supplies.flatMap (·.params)) := by
  induction supplies generalizing parts with
  | nil =>
    obtain rfl := Except.ok.inj h
    exact Renders.nil
  | cons v supplies ih =>
    obtain ⟨here, others, hhere, hothers, rfl⟩ := suppliesSql_cons_eq_ok h
    exact (Supply.renders hhere).append (ih hothers)

lemma renders_sets {assignments : List Assignment} {parts : List Sql}
    (h : suppliesSql (assignments.map (·.2)) = .ok parts) :
    Renders (assignments.zipWith (fun a v => .name a.1.name :: .word " = " :: v) parts).flatten
      (assignments.flatMap (·.2.params)) := by
  induction assignments generalizing parts with
  | nil => exact Renders.nil
  | cons a assignments ih =>
    obtain ⟨here, others, hhere, hothers, rfl⟩ := suppliesSql_cons_eq_ok h
    have hset := ((Supply.renders hhere).word (w := " = ") (by decide)).name (n := a.1.name)
    exact hset.append (ih hothers)

lemma renders_sorting (sorting : List SortKey) : (sortingSql sorting).Renders [] := by
  rw [sortingSql]
  split
  · exact Renders.nil
  · exact (Renders.commas_map fun k _ => k.renders).word (by decide)

lemma renders_limit (limit : Option Nat) : (limitSql limit).Renders (limitParams limit) := by
  cases limit with
  | none => exact Renders.nil
  | some n => exact Renders.nil.hole.word (by decide)

lemma renders_returning (returning : Bool) : (returningSql returning).Renders [] := by
  cases returning with
  | false => exact Renders.nil
  | true => exact Renders.nil.word (by decide)

namespace Statement

lemma renders_select {s : Select} {sql : Sql} (h : s.sql = .ok sql) :
    sql.Renders (params (.select s)) := by
  obtain ⟨source, joins, filter, -, hjoins, hfilter, rfl⟩ := Select.sql_eq_ok h
  have hitems : Renders (.word "SELECT " :: Sql.commas (s.resultItems.map (·.sql))) [] :=
    (Renders.commas_map fun i _ => i.renders).word (by decide)
  have hsource := ((renders_joins hjoins).name (n := source.name)).word (w := " FROM ") (by decide)
  have hall := (((hitems.append hsource).append (renders_filter hfilter)).append
    (renders_sorting s.sorting)).append (renders_limit s.limit)
  rwa [List.nil_append, List.append_nil] at hall

lemma renders_insert {s : Insert} {sql : Sql} (h : s.sql = .ok sql) :
    sql.Renders (params (.insert s)) := by
  obtain ⟨values, hvalues, rfl⟩ := Insert.sql_eq_ok h
  have hcolumns : Renders (Sql.commas (s.assignments.map fun a => [.name a.1.name])) [] :=
    Renders.commas_map fun a _ => Renders.nil.name
  have htarget := ((hcolumns.word (w := " (") (by decide)).name (n := s.table.name)).word
    (w := "INSERT INTO ") (by decide)
  have hsupplies := (renders_supplies hvalues).commas.word (w := ") VALUES (") (by decide)
  have hclosing := (renders_returning s.returning).word (w := ")") (by decide)
  have hall := (htarget.append hsupplies).append hclosing
  rwa [List.nil_append, List.append_nil, List.flatMap_map] at hall

lemma renders_update {s : Update} {sql : Sql} (h : s.sql = .ok sql) :
    sql.Renders (params (.update s)) := by
  obtain ⟨values, filter, hvalues, hfilter, rfl⟩ := Update.sql_eq_ok h
  have hsets := (((renders_sets hvalues).commas.word (w := " SET ") (by decide)).name
    (n := s.table.name)).word (w := "UPDATE ") (by decide)
  have hall := (hsets.append (renders_filter hfilter)).append (renders_returning s.returning)
  rwa [List.append_nil] at hall

lemma renders_delete {s : Delete} {sql : Sql} (h : s.sql = .ok sql) :
    sql.Renders (params (.delete s)) := by
  obtain ⟨filter, hfilter, rfl⟩ := Delete.sql_eq_ok h
  have htarget := ((renders_filter hfilter).name (n := s.table.name)).word
    (w := "DELETE FROM ") (by decide)
  have hall := htarget.append (renders_returning s.returning)
  rwa [List.append_nil] at hall

lemma renders {s : Statement} (hd : s.isDdl = false) {sql : Sql} (h : s.sql = .ok sql) :
    sql.Renders s.params := by
  cases s with
  | select s => exact renders_select h
  | insert s => exact renders_insert h
  | update s => exact renders_update h
  | delete s => exact renders_delete h
  | ddl d => cases hd

/-- Reading the text of a statement finds its parameters, one placeholder for each slot and in the
order of the slots, each where it was written. -/
theorem slots_of_placeholders {s : Statement} {c : Compiled} (hd : s.isDdl = false)
    (h : s.compile = .ok c) :
    (placeholders c.sql).length = c.slots.length ∧
      c.slots = s.params.zipIdx.map (fun p => ⟨p.2, p.1.value, p.1.name⟩) ∧
      ∃ pieces, s.sql = .ok pieces ∧ c.sql = pieces.text ∧
        ∀ (before : Sql) (p : Param) (after : Sql), pieces = before ++ .hole p :: after →
          s.params[before.params.length]? = some p ∧
            (placeholders c.sql)[before.params.length]? = some before.text.length := by
  obtain ⟨pieces, hpieces, rfl⟩ := map_eq_ok_iff.mp h
  obtain ⟨hsealed, hparams⟩ := renders hd hpieces
  have hplaces : placeholders pieces.text = pieces.holesFrom 0 := placeholdersFrom_text hsealed 0
  refine ⟨?_, ?_, pieces, hpieces, rfl, ?_⟩
  · rw [hplaces, Sql.length_holesFrom, Sql.slots, List.length_map, List.length_zipIdx]
  · rw [Sql.slots, hparams]
  · rintro before p after rfl
    constructor
    · rw [← hparams, Sql.params_append]
      simp [Sql.params, Piece.param?]
    · rw [hplaces, Sql.holesFrom_append, ← Sql.length_holesFrom before 0]
      simp [Sql.holesFrom, Piece.param?, String.length_toList]

namespace Quoted

def table : Table :=
  ⟨"a \"? table", [{ name := "it's?", kind := .text }, { name := "OR '?", kind := .integer }]⟩

def change : Statement :=
  .update
    { table
      assignments := table.allColumns.zip [.literal (.text "'?"), .param { value := some (.int 7) }]
      filter := some (.comparison
        ⟨table.column { name := "it's?", kind := .text }, .ne,
          .supply (.param { name := some "who?" })⟩) }

end Quoted

theorem slots_of_placeholders_quoted :
    ∃ c, Quoted.change.isDdl = false ∧ Quoted.change.compile = .ok c ∧
      (placeholders c.sql).length = c.slots.length ∧
      c.slots = [⟨0, some (.int 7), none⟩, ⟨1, none, some "who?"⟩] := by
  obtain ⟨c, hc⟩ : ∃ c, Quoted.change.compile = .ok c := ⟨_, rfl⟩
  obtain ⟨hlength, hslots, -⟩ := slots_of_placeholders rfl hc
  exact ⟨c, rfl, hc, hlength, hslots⟩

end Statement

end Tablewright
