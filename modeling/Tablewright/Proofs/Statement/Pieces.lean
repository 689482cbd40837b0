import Tablewright.Proofs.Outcome
import Tablewright.Statement.Sql

namespace Tablewright

lemma Supply.sql_eq_ok_iff {s : Supply} {sql : Sql} :
    s.sql = .ok sql ↔ match s with
      | .param p => sql = [.hole p]
      | .literal v => ∃ text, v.literal = .ok text ∧ sql = [.literal text] := by
  cases s with
  | param p => simp [Supply.sql, eq_comm]
  | literal v =>
    simp only [Supply.sql, map_eq_ok_iff, mapError_eq_ok_iff]
    exact ⟨fun ⟨text, ht, he⟩ => ⟨text, ht, he.symm⟩, fun ⟨text, ht, he⟩ => ⟨text, ht, he.symm⟩⟩

lemma filterSql_eq_ok {filter : Option Predicate} {sql : Sql} (h : filterSql filter = .ok sql) :
    (filter = none ∧ sql = []) ∨
      ∃ p s, filter = some p ∧ p.sql none = .ok s ∧ sql = .word " WHERE " :: s := by
  cases filter with
  | none => exact Or.inl ⟨rfl, (Except.ok.inj h).symm⟩
  | some p =>
    obtain ⟨s, hs, rfl⟩ := map_eq_ok_iff.mp h
    exact Or.inr ⟨p, s, rfl, hs, rfl⟩

lemma joinsSql_cons_eq_ok {j : Join} {rest : List Join} {sql : Sql}
    (h : joinsSql (j :: rest) = .ok sql) :
    ∃ on others, j.on.sql none = .ok on ∧ joinsSql rest = .ok others ∧
      sql = .word " INNER JOIN " :: .name j.table.name :: .word " ON " :: on ++ others := by
  obtain ⟨on, hon, h⟩ := seq_eq_ok_iff.mp h
  obtain ⟨others, hothers, h⟩ := seq_eq_ok_iff.mp h
  exact ⟨on, others, hon, hothers, (pure_eq_ok_iff.mp h).symm⟩

lemma suppliesSql_cons_eq_ok {s : Supply} {rest : List Supply} {parts : List Sql}
    (h : suppliesSql (s :: rest) = .ok parts) :
    ∃ here others, s.sql = .ok here ∧ suppliesSql rest = .ok others ∧ parts = here :: others := by
  obtain ⟨here, hhere, h⟩ := seq_eq_ok_iff.mp h
  obtain ⟨others, hothers, h⟩ := seq_eq_ok_iff.mp h
  exact ⟨here, others, hhere, hothers, (pure_eq_ok_iff.mp h).symm⟩

def sortingSql (sorting : List SortKey) : Sql :=
  if sorting.isEmpty then [] else .word " ORDER BY " :: Sql.commas (sorting.map (·.sql))

def limitSql : Option Nat → Sql
  | none => []
  | some n => [.word " LIMIT ", .hole { value := some (.int n) }]

lemma Select.sql_eq_ok {s : Select} {sql : Sql} (h : s.sql = .ok sql) :
    ∃ source joins filter, s.check = .ok source ∧ joinsSql s.joins = .ok joins ∧
      filterSql s.filter = .ok filter ∧
      sql = .word "SELECT " :: Sql.commas (s.resultItems.map (·.sql)) ++
        .word " FROM " :: .name source.name :: joins ++ filter ++ sortingSql s.sorting ++
          limitSql s.limit := by
  obtain ⟨source, hsource, h⟩ := seq_eq_ok_iff.mp h
  obtain ⟨joins, hjoins, h⟩ := seq_eq_ok_iff.mp h
  obtain ⟨filter, hfilter, h⟩ := seq_eq_ok_iff.mp h
  refine ⟨source, joins, filter, hsource, hjoins, hfilter, ?_⟩
  rw [← pure_eq_ok_iff.mp h]
  cases s.limit <;> rfl

lemma Insert.sql_eq_ok {s : Insert} {sql : Sql} (h : s.sql = .ok sql) :
    ∃ values, suppliesSql (s.assignments.map (·.2)) = .ok values ∧
      sql = .word "INSERT INTO " :: .name s.table.name :: .word " (" ::
        Sql.commas (s.assignments.map fun a => [.name a.1.name]) ++
        .word ") VALUES (" :: Sql.commas values ++ .word ")" :: returningSql s.returning := by
  rw [Insert.sql] at h
  split at h
  · obtain ⟨_, hthrow, -⟩ := seq_eq_ok_iff.mp h
    cases hthrow
  · obtain ⟨values, hvalues, h⟩ := seq_eq_ok_iff.mp h
    exact ⟨values, hvalues, (pure_eq_ok_iff.mp h).symm⟩

lemma Update.sql_eq_ok {s : Update} {sql : Sql} (h : s.sql = .ok sql) :
    ∃ values filter, suppliesSql (s.assignments.map (·.2)) = .ok values ∧
      filterSql s.filter = .ok filter ∧
      sql = .word "UPDATE " :: .name s.table.name :: .word " SET " ::
        Sql.commas (s.assignments.zipWith (fun a v => .name a.1.name :: .word " = " :: v) values) ++
        filter ++ returningSql s.returning := by
  rw [Update.sql] at h
  split at h
  · obtain ⟨_, hthrow, -⟩ := seq_eq_ok_iff.mp h
    cases hthrow
  · obtain ⟨values, hvalues, h⟩ := seq_eq_ok_iff.mp h
    obtain ⟨filter, hfilter, h⟩ := seq_eq_ok_iff.mp h
    exact ⟨values, filter, hvalues, hfilter, (pure_eq_ok_iff.mp h).symm⟩

lemma Delete.sql_eq_ok {s : Delete} {sql : Sql} (h : s.sql = .ok sql) :
    ∃ filter, filterSql s.filter = .ok filter ∧
      sql = .word "DELETE FROM " :: .name s.table.name :: filter ++ returningSql s.returning := by
  obtain ⟨filter, hfilter, h⟩ := seq_eq_ok_iff.mp h
  exact ⟨filter, hfilter, (pure_eq_ok_iff.mp h).symm⟩

namespace Sql

@[simp] lemma params_append (s t : Sql) : params (s ++ t) = params s ++ params t :=
  List.filterMap_append

lemma text_append (s t : Sql) : (s ++ t).text = s.text ++ t.text := by
  simp [text, List.map_append, String.join_append]

lemma toList_text_cons (p : Piece) (s : Sql) :
    (text (p :: s)).toList = p.text.toList ++ s.text.toList := by
  simp [text]

lemma toList_text_append (s t : Sql) :
    (text (s ++ t)).toList = s.text.toList ++ t.text.toList := by
  rw [text_append, String.toList_append]

lemma separated_cons_cons (separator : String) (a b : Sql) (rest : List Sql) :
    separated separator (a :: b :: rest) =
      a ++ .word separator :: separated separator (b :: rest) := rfl

lemma separated_singleton (separator : String) (a : Sql) : separated separator [a] = a := by
  simp [separated, List.intercalate]

lemma params_separated (separator : String) (parts : List Sql) :
    params (separated separator parts) = parts.flatMap params := by
  match parts with
  | [] => rfl
  | [a] => simp [separated_singleton]
  | a :: b :: rest =>
    rw [separated_cons_cons, params_append, List.flatMap_cons, ← params_separated separator (b :: rest)]
    rfl

lemma mem_separated {separator : String} {parts : List Sql} {p : Piece}
    (h : p ∈ separated separator parts) : p = .word separator ∨ ∃ s ∈ parts, p ∈ s := by
  match parts with
  | [] => cases h
  | [a] =>
    rw [separated_singleton] at h
    exact Or.inr ⟨a, by simp, h⟩
  | a :: b :: rest =>
    rw [separated_cons_cons] at h
    rcases List.mem_append.mp h with h | h
    · exact Or.inr ⟨a, List.mem_cons_self, h⟩
    · rcases List.mem_cons.mp h with h | h
      · exact Or.inl h
      · obtain h | ⟨s, hs, hp⟩ := mem_separated h
        · exact Or.inl h
        · exact Or.inr ⟨s, List.mem_cons_of_mem _ hs, hp⟩

end Sql

end Tablewright
