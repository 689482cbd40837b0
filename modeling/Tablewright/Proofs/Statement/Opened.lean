import Tablewright.Proofs.Statement.Built
import Tablewright.Proofs.Statement.Pieces
import Tablewright.Statement.Compiled

/-! Conditions whose groups are opened: the members of a group of the same kind stand among those of
the group around it. The text of a condition does not tell how it was grouped, so a statement
compiles to what it compiles to with its conditions opened. -/

namespace Tablewright

namespace Predicate

variable {k : Connective} {p : Predicate} {ps items : List Predicate}

mutual

def opened : Predicate → Predicate
  | comparison c => comparison c
  | group k items => group k (openedMembers k items)
  | stray v => stray v

def openedMembers (k : Connective) : List Predicate → List Predicate
  | [] => []
  | p :: rest => p.opened.members k ++ openedMembers k rest

end

lemma openedMembers_eq (k : Connective) (items : List Predicate) :
    openedMembers k items = items.flatMap fun p => p.opened.members k := by
  induction items with
  | nil => rw [openedMembers, List.flatMap_nil]
  | cons p items ih => rw [openedMembers, ih, List.flatMap_cons]

lemma openedMembers_append (k : Connective) (ps qs : List Predicate) :
    openedMembers k (ps ++ qs) = openedMembers k ps ++ openedMembers k qs := by
  simp only [openedMembers_eq, List.flatMap_append]

lemma openedMembers_members (k : Connective) (p : Predicate) :
    openedMembers k (p.members k) = p.opened.members k := by
  cases p with
  | group k' items =>
    rw [opened, members, members]
    split
    · next hk => rw [hk]
    · next hk => simp [openedMembers, opened, members, hk]
  | comparison c | stray v => simp [openedMembers, opened, members]

lemma openedMembers_flatMap_members (k : Connective) (ps : List Predicate) :
    openedMembers k (ps.flatMap (members k)) = openedMembers k ps := by
  induction ps with
  | nil => rfl
  | cons p ps ih =>
    rw [List.flatMap_cons, openedMembers_append, openedMembers_members, ih, openedMembers]

section Shapes

lemma Whole.flat_opened (h : p.Whole) : p.opened.Flat := by
  induction h with
  | comparison c =>
    rw [opened]
    exact .comparison c
  | @group k items _ _ ih =>
    rw [opened, openedMembers_eq]
    refine .group (fun q hq => ?_) fun q hq => ?_ <;>
      obtain ⟨p, hp, hq⟩ := List.mem_flatMap.mp hq
    · exact (ih p hp).connective?_members q hq
    · exact (ih p hp).members q hq

lemma Solid.opened (h : p.Solid) : p.opened.Solid := by
  induction h with
  | comparison c =>
    rw [Predicate.opened]
    exact .comparison c
  | @group k items hne _ ih =>
    rw [Predicate.opened, openedMembers_eq]
    obtain ⟨p, hp⟩ := List.exists_mem_of_ne_nil items hne
    obtain ⟨q, hq⟩ := List.exists_mem_of_ne_nil _ ((ih p hp).members_ne_nil (k := k))
    refine .group (List.ne_nil_of_mem (List.mem_flatMap.mpr ⟨p, hp, hq⟩)) fun r hr => ?_
    obtain ⟨s, hs, hr⟩ := List.mem_flatMap.mp hr
    exact (ih s hs).members r hr

lemma length_openedMembers (h : ∀ p ∈ ps, p.Solid) : ps.length ≤ (openedMembers k ps).length := by
  induction ps with
  | nil => exact Nat.zero_le _
  | cons p ps ih =>
    rw [List.forall_mem_cons] at h
    have hp := List.length_pos_of_ne_nil (h.1.opened.members_ne_nil (k := k))
    have hps := ih h.2
    rw [openedMembers, List.length_append, List.length_cons]
    omega

end Shapes

section Texts

lemma memberSql_append (k : Connective) (ps qs : List Predicate) :
    memberSql k (ps ++ qs) =
      (memberSql k ps).bind fun here => (memberSql k qs).map (here ++ ·) := by
  induction ps with
  | nil => cases hqs : memberSql k qs <;> simp [memberSql, Except.bind, Except.map, hqs]
  | cons p ps ih =>
    cases p with
    | comparison c =>
      rw [List.cons_append, memberSql, memberSql, ih]
      cases c.sql <;> cases memberSql k ps <;> cases memberSql k qs <;> rfl
    | group k' items =>
      rw [List.cons_append, memberSql, memberSql, ih]
      split
      · cases memberSql k items <;> cases memberSql k ps <;> cases memberSql k qs <;>
          simp [Except.bind, Except.map]
      · cases sql (some k) (group k' items) <;> cases memberSql k ps <;>
          cases memberSql k qs <;> rfl
    | stray v =>
      rw [List.cons_append, memberSql, memberSql]
      rfl

mutual

lemma sql_opened (within : Option Connective) : (p : Predicate) → p.opened.sql within = p.sql within
  | comparison c => by rw [opened]
  | group k items => by rw [opened, sql, sql, memberSql_openedMembers k items]
  | stray v => by rw [opened]

lemma memberSql_openedMembers (k : Connective) :
    (items : List Predicate) → memberSql k (openedMembers k items) = memberSql k items
  | [] => by rw [openedMembers]
  | comparison c :: rest => by
    rw [openedMembers, opened, members, memberSql_append, memberSql_openedMembers k rest, memberSql,
      memberSql, memberSql]
    · cases c.sql <;> cases memberSql k rest <;> rfl
    · exact nofun
  | group k' items :: rest => by
    rw [openedMembers, opened, members, memberSql_append, memberSql_openedMembers k rest]
    split
    · next hk => rw [memberSql, if_pos hk, hk, memberSql_openedMembers k items]
    · next hk =>
      have hgroup := sql_opened (some k) (group k' items)
      rw [opened] at hgroup
      rw [memberSql, memberSql, memberSql, if_neg hk, if_neg hk, hgroup]
      cases sql (some k) (group k' items) <;> cases memberSql k rest <;> rfl
  | stray v :: rest => by
    rw [openedMembers, opened, members, memberSql_append, memberSql, memberSql]
    · rfl
    · exact nofun

end

mutual

lemma whole_of_sql {within : Option Connective} {s : Sql} :
    (p : Predicate) → p.sql within = .ok s → p.Whole
  | comparison c, _ => .comparison c
  | group k items, h => by
    rw [sql] at h
    obtain ⟨parts, hparts, -⟩ := map_eq_ok_iff.mp h
    exact .group trivial (whole_of_memberSql items hparts)
  | stray v, h => by
    rw [sql] at h
    cases h

lemma whole_of_memberSql {k : Connective} {parts : List Sql} :
    (items : List Predicate) → memberSql k items = .ok parts → ∀ p ∈ items, p.Whole
  | [], _ => List.forall_mem_nil _
  | comparison c :: rest, h => by
    rw [memberSql] at h
    obtain ⟨here, -, h⟩ := bind_eq_ok_iff.mp h
    obtain ⟨others, hothers, -⟩ := map_eq_ok_iff.mp h
    exact List.forall_mem_cons.mpr ⟨.comparison c, whole_of_memberSql rest hothers⟩
  | group k' items :: rest, h => by
    rw [memberSql] at h
    split at h
    · obtain ⟨here, hhere, h⟩ := bind_eq_ok_iff.mp h
      obtain ⟨others, hothers, -⟩ := map_eq_ok_iff.mp h
      have hitems := whole_of_memberSql items hhere
      exact List.forall_mem_cons.mpr ⟨.group trivial hitems, whole_of_memberSql rest hothers⟩
    · obtain ⟨here, hhere, h⟩ := bind_eq_ok_iff.mp h
      obtain ⟨others, hothers, -⟩ := map_eq_ok_iff.mp h
      have hgroup := whole_of_sql (group k' items) hhere
      exact List.forall_mem_cons.mpr ⟨hgroup, whole_of_memberSql rest hothers⟩
  | stray v :: rest, h => by
    rw [memberSql] at h
    cases h

end

end Texts

mutual

lemma columns_opened : (p : Predicate) → p.opened.columns = p.columns
  | comparison c => by rw [opened]
  | group k items => by rw [opened, columns, columns, columnsOf_openedMembers k items]
  | stray v => by rw [opened]

lemma columnsOf_openedMembers (k : Connective) :
    (items : List Predicate) → columnsOf (openedMembers k items) = columnsOf items
  | [] => by rw [openedMembers]
  | p :: rest => by
    have hp : columnsOf (p.opened.members k) = p.columns := by
      rw [columnsOf_members, columns_opened p]
    have hrest := columnsOf_openedMembers k rest
    rw [openedMembers, columnsOf, columnsOf_append, hp, hrest]

end

end Predicate

def Join.opened (j : Join) : Join := { j with on := j.on.opened }

def Select.opened (s : Select) : Select :=
  { s with joins := s.joins.map (·.opened), filter := s.filter.map (·.opened) }

def Update.opened (s : Update) : Update := { s with filter := s.filter.map (·.opened) }

def Delete.opened (s : Delete) : Delete := { s with filter := s.filter.map (·.opened) }

def Statement.opened : Statement → Statement
  | select s => select s.opened
  | update s => update s.opened
  | delete s => delete s.opened
  | s => s

def Statement.conditions : Statement → List Predicate
  | select s => s.joins.map (·.on) ++ s.filter.toList
  | update s => s.filter.toList
  | delete s => s.filter.toList
  | _ => []

lemma filterSql_opened (filter : Option Predicate) :
    filterSql (filter.map (·.opened)) = filterSql filter := by
  cases filter with
  | none => rfl
  | some p => rw [Option.map_some, filterSql, filterSql, p.sql_opened]

lemma joinsSql_opened (js : List Join) : joinsSql (js.map (·.opened)) = joinsSql js := by
  induction js with
  | nil => rfl
  | cons j js ih => rw [List.map_cons, joinsSql, joinsSql, ih, Join.opened, j.on.sql_opened]

namespace Select

lemma tables_opened (s : Select) : s.opened.tables = s.tables := by
  simp [tables, opened, Join.opened, Function.comp_def]

lemma mentioned_opened (s : Select) : s.opened.mentioned = s.mentioned := by
  cases hf : s.filter <;>
    simp [mentioned, itemColumns, countedColumns, opened, Join.opened, List.flatMap_map,
      Predicate.columns_opened, hf]

lemma check_opened (s : Select) : s.opened.check = s.check := by
  rw [check, check, mentioned_opened, tableNames, tables_opened]
  rfl

lemma resultItems_opened (s : Select) : s.opened.resultItems = s.resultItems := by
  rw [resultItems, tables_opened]
  rfl

lemma sql_opened (s : Select) : s.opened.sql = s.sql := by
  rw [sql, sql, check_opened, resultItems_opened]
  simp only [opened, joinsSql_opened, filterSql_opened]
  rfl

end Select

namespace Statement

lemma sql_opened (s : Statement) : s.opened.sql = s.sql := by
  cases s with
  | select s => exact s.sql_opened
  | update s =>
    rw [opened, sql, sql, Update.sql, Update.sql]
    simp only [Update.opened, filterSql_opened]
  | delete s =>
    rw [opened, sql, sql, Delete.sql, Delete.sql]
    simp only [Delete.opened, filterSql_opened]
  | insert s | ddl d => rfl

lemma compile_opened (s : Statement) : s.opened.compile = s.compile := by
  have hcolumns : s.opened.resultColumns = s.resultColumns := by
    cases s with
    | select s => exact congrArg (List.map SelectItem.origin) s.resultItems_opened
    | _ => rfl
  rw [compile, compile, sql_opened, hcolumns]
  cases s <;> rfl

lemma isDdl_opened (s : Statement) : s.opened.isDdl = s.isDdl := by
  cases s <;> rfl

lemma compile_eq_of_opened {s t : Statement} (h : s.opened = t.opened) : s.compile = t.compile := by
  rw [← s.compile_opened, h, t.compile_opened]

lemma conditions_opened (s : Statement) :
    s.opened.conditions = s.conditions.map (·.opened) := by
  cases s with
  | select s => cases hf : s.filter <;> simp [opened, Select.opened, conditions, Join.opened, hf]
  | update s => cases hf : s.filter <;> simp [opened, Update.opened, conditions, hf]
  | delete s => cases hf : s.filter <;> simp [opened, Delete.opened, conditions, hf]
  | insert s | ddl d => rfl

end Statement

end Tablewright
