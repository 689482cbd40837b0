import Tablewright.Proofs.Statement.Scope

/-! Statements without the values of their placeholders. Neither the builder nor the compiler looks
at those values, so statements that differ in nothing else compile to the same text, with the same
slots to be filled. -/

namespace Tablewright

def Param.blank (p : Param) : Param := { p with value := none }

def Supply.blank : Supply → Supply
  | param p => param p.blank
  | literal v => literal v

def Operand.blank : Operand → Operand
  | supply s => supply s.blank
  | column c => column c

def Comparison.blank (c : Comparison) : Comparison := { c with operand := c.operand.blank }

namespace Predicate

mutual

def blank : Predicate → Predicate
  | comparison c => comparison c.blank
  | group k items => group k (blanks items)
  | stray v => stray v

def blanks : List Predicate → List Predicate
  | [] => []
  | p :: rest => p.blank :: blanks rest

end

lemma blanks_eq_map (ps : List Predicate) : blanks ps = ps.map blank := by
  induction ps with
  | nil => rfl
  | cons p ps ih => rw [blanks, ih, List.map_cons]

end Predicate

def Join.blank (j : Join) : Join := { j with on := j.on.blank }

def Assignment.blank (a : Assignment) : Assignment := (a.1, a.2.blank)

/-- A limit counts as the value of a placeholder. -/
def Select.blank (s : Select) : Select :=
  { s with
    joins := s.joins.map (·.blank)
    filter := s.filter.map (·.blank)
    limit := s.limit.map fun _ => 0 }

def Insert.blank (s : Insert) : Insert := { s with assignments := s.assignments.map (·.blank) }

def Update.blank (s : Update) : Update :=
  { s with
    assignments := s.assignments.map (·.blank)
    filter := s.filter.map (·.blank) }

def Delete.blank (s : Delete) : Delete := { s with filter := s.filter.map (·.blank) }

def Statement.blank : Statement → Statement
  | select s => select s.blank
  | insert s => insert s.blank
  | update s => update s.blank
  | delete s => delete s.blank
  | ddl d => ddl d

section Texts

def Piece.blank : Piece → Piece
  | hole p => hole p.blank
  | p => p

namespace Sql

def blank (s : Sql) : Sql := s.map (·.blank)

@[simp] lemma blank_cons (p : Piece) (s : Sql) : blank (p :: s) = p.blank :: blank s := rfl

@[simp] lemma blank_append (s t : Sql) : blank (s ++ t) = blank s ++ blank t := List.map_append

@[simp] lemma blank_blank (s : Sql) : s.blank.blank = s.blank := by
  have hpiece : ∀ p : Piece, p.blank.blank = p.blank := fun p => by cases p <;> rfl
  simp [blank, hpiece, Function.comp_def]

lemma blank_separated (separator : String) (parts : List Sql) :
    blank (separated separator parts) = separated separator (parts.map blank) := by
  match parts with
  | [] => rfl
  | [a] => simp only [separated_singleton, List.map_cons, List.map_nil]
  | a :: b :: rest =>
    have ih := blank_separated separator (b :: rest)
    simp only [List.map_cons] at ih ⊢
    rw [separated_cons_cons, separated_cons_cons, blank_append, blank_cons, ih]
    rfl

lemma blank_commas (parts : List Sql) : blank (commas parts) = commas (parts.map blank) :=
  blank_separated ", " parts

lemma text_blank (s : Sql) : s.blank.text = s.text := by
  have hpiece : ∀ p : Piece, p.blank.text = p.text := fun p => by cases p <;> rfl
  simp [text, blank, hpiece, Function.comp_def]

lemma params_blank (s : Sql) : s.blank.params = s.params.map (·.blank) := by
  induction s with
  | nil => rfl
  | cons p s ih =>
    cases p with
    | hole p => exact congrArg (p.blank :: ·) ih
    | word w | name n | literal l => exact ih

lemma slots_eq_of_blank {s t : Sql} (h : s.blank = t.blank) :
    s.slots.map (fun i => (i.position, i.name)) = t.slots.map fun i => (i.position, i.name) := by
  have hslots : ∀ s : Sql, s.slots.map (fun i => (i.position, i.name)) =
      (s.blank.params.map (·.name)).zipIdx.map fun e => (e.2, e.1) := by
    intro s
    rw [slots, params_blank, List.map_map, List.map_map, List.zipIdx_map, List.map_map]
    rfl
  rw [hslots, hslots, h]

end Sql

lemma Supply.sql_blank (s : Supply) : s.blank.sql = s.sql.map Sql.blank := by
  cases s with
  | param p => rfl
  | literal v =>
    simp only [blank, sql]
    cases v.literal <;> rfl

lemma Operand.sql_blank (o : Operand) : o.blank.sql = o.sql.map Sql.blank := by
  cases o with
  | supply s => exact s.sql_blank
  | column c => rfl

lemma Comparison.sql_blank (c : Comparison) : c.blank.sql = c.sql.map Sql.blank := by
  rw [sql, sql, blank, Operand.sql_blank]
  cases c.operand.sql <;> rfl

namespace Predicate

lemma blank_embrace (within : Option Connective) (k : Connective) (s : Sql) :
    (embrace within k s).blank = embrace within k s.blank := by
  rw [embrace, embrace]
  split
  · simp [Sql.blank, Piece.blank]
  · rfl

mutual

lemma sql_blank (within : Option Connective) :
    (p : Predicate) → p.blank.sql within = (p.sql within).map Sql.blank
  | comparison c => by
    rw [blank, sql, sql]
    exact c.sql_blank
  | group k items => by
    rw [blank, sql, sql, memberSql_blank]
    cases memberSql k items with
    | error e => rfl
    | ok parts => exact congrArg Except.ok (by rw [blank_embrace, Sql.blank_separated])
  | stray v => rfl

lemma memberSql_blank (k : Connective) : (items : List Predicate) →
    memberSql k (blanks items) = (memberSql k items).map (List.map Sql.blank)
  | [] => by simp [blanks, memberSql, Except.map]
  | comparison c :: rest => by
    rw [blanks, blank, memberSql, memberSql, c.sql_blank, memberSql_blank k rest]
    cases c.sql <;> cases memberSql k rest <;> rfl
  | group k' items :: rest => by
    rw [blanks, blank, memberSql, memberSql, memberSql_blank k rest]
    split
    · rw [memberSql_blank k items]
      cases memberSql k items <;> cases memberSql k rest <;>
        simp [Except.map, Except.bind]
    · have ih := sql_blank (some k) (group k' items)
      rw [blank] at ih
      rw [ih]
      cases sql (some k) (group k' items) <;> cases memberSql k rest <;> rfl
  | stray v :: rest => by
    rw [blanks, blank, memberSql, memberSql]
    rfl

end

end Predicate

lemma filterSql_blank (p : Option Predicate) :
    filterSql (p.map (·.blank)) = (filterSql p).map Sql.blank := by
  cases p with
  | none => rfl
  | some p =>
    rw [Option.map_some, filterSql, filterSql, p.sql_blank]
    cases p.sql none <;> rfl

lemma joinsSql_blank (js : List Join) :
    joinsSql (js.map (·.blank)) = (joinsSql js).map Sql.blank := by
  induction js with
  | nil => rfl
  | cons j js ih =>
    rw [List.map_cons, joinsSql, joinsSql, ih, Join.blank, j.on.sql_blank]
    cases j.on.sql none with
    | error e => rfl
    | ok on =>
      cases joinsSql js with
      | error e => rfl
      | ok others => exact congrArg Except.ok (by simp [Piece.blank])

lemma suppliesSql_blank (supplies : List Supply) :
    suppliesSql (supplies.map (·.blank)) = (suppliesSql supplies).map (List.map Sql.blank) := by
  induction supplies with
  | nil => rfl
  | cons s supplies ih =>
    rw [List.map_cons, suppliesSql, suppliesSql, ih, s.sql_blank]
    cases s.sql <;> cases suppliesSql supplies <;> rfl

end Texts

namespace Predicate

lemma columns_blank_operand (o : Operand) : Operand.columns o.blank = Operand.columns o := by
  cases o <;> rfl

mutual

lemma columns_blank : (p : Predicate) → p.blank.columns = p.columns
  | comparison c => by
    rw [blank, columns, columns]
    exact congrArg (fun cs => (c.column :: cs).map Except.ok) (columns_blank_operand c.operand)
  | group k items => by rw [blank, columns, columns, columnsOf_blank items]
  | stray v => rfl

lemma columnsOf_blank : (items : List Predicate) → columnsOf (blanks items) = columnsOf items
  | [] => by rw [blanks]
  | p :: rest => by rw [blanks, columnsOf, columnsOf, columns_blank p, columnsOf_blank rest]

end

end Predicate

namespace Select

lemma tables_blank (s : Select) : s.blank.tables = s.tables := by
  simp [tables, blank, Join.blank, Function.comp_def]

lemma mentioned_blank (s : Select) : s.blank.mentioned = s.mentioned := by
  simp [mentioned, itemColumns, countedColumns, blank, Join.blank, List.flatMap_map,
    Predicate.columns_blank]
  cases s.filter <;> simp [Predicate.columns_blank]

lemma check_blank (s : Select) : s.blank.check = s.check := by
  rw [check, check, mentioned_blank, tableNames, tables_blank]
  rfl

lemma resultItems_blank (s : Select) : s.blank.resultItems = s.resultItems := by
  rw [resultItems, tables_blank]
  rfl

lemma sql_blank (s : Select) : s.blank.sql.map Sql.blank = s.sql.map Sql.blank := by
  rw [sql, sql, check_blank, resultItems_blank]
  simp only [blank, joinsSql_blank, filterSql_blank]
  cases s.check with
  | error e => rfl
  | ok source =>
    cases joinsSql s.joins with
    | error e => rfl
    | ok joins =>
      cases filterSql s.filter with
      | error e => rfl
      | ok filter =>
        refine congrArg Except.ok ?_
        cases s.limit <;> simp [Piece.blank, Param.blank]

end Select

lemma supplies_blank (assignments : List Assignment) :
    (assignments.map (·.blank)).map (·.2) = (assignments.map (·.2)).map (·.blank) := by
  rw [List.map_map, List.map_map]
  rfl

lemma Insert.sql_blank (s : Insert) : s.blank.sql.map Sql.blank = s.sql.map Sql.blank := by
  rw [sql, sql]
  simp only [blank, List.isEmpty_map, supplies_blank, suppliesSql_blank]
  cases s.assignments.isEmpty with
  | true => rfl
  | false =>
    cases suppliesSql (s.assignments.map (·.2)) with
    | error e => rfl
    | ok values =>
      refine congrArg Except.ok ?_
      simp [Assignment.blank, Piece.blank, Sql.blank_commas, Function.comp_def]

lemma Update.sql_blank (s : Update) : s.blank.sql.map Sql.blank = s.sql.map Sql.blank := by
  rw [sql, sql]
  simp only [blank, List.isEmpty_map, supplies_blank, suppliesSql_blank, filterSql_blank]
  cases s.assignments.isEmpty with
  | true => rfl
  | false =>
    cases suppliesSql (s.assignments.map (·.2)) with
    | error e => rfl
    | ok values =>
      cases filterSql s.filter with
      | error e => rfl
      | ok filter =>
        refine congrArg Except.ok ?_
        simp [Assignment.blank, Piece.blank, Sql.blank_commas, List.map_zipWith,
          List.zipWith_map_left, List.zipWith_map_right]

lemma Delete.sql_blank (s : Delete) : s.blank.sql.map Sql.blank = s.sql.map Sql.blank := by
  rw [sql, sql]
  simp only [blank, filterSql_blank]
  cases filterSql s.filter with
  | error e => rfl
  | ok filter => exact congrArg Except.ok (by simp [Piece.blank])

namespace Statement

lemma sql_blank (s : Statement) : s.blank.sql.map Sql.blank = s.sql.map Sql.blank := by
  cases s with
  | select s => exact s.sql_blank
  | insert s => exact s.sql_blank
  | update s => exact s.sql_blank
  | delete s => exact s.sql_blank
  | ddl d => rfl

lemma resultColumns_blank (s : Statement) : s.blank.resultColumns = s.resultColumns := by
  cases s with
  | select s => exact congrArg (List.map SelectItem.origin) s.resultItems_blank
  | _ => rfl

end Statement

end Tablewright
