import Tablewright.Proofs.Statement.Alike
import Tablewright.Proofs.Statement.Outline
import Tablewright.Proofs.Statement.Refused

/-! Conditions with an empty group in them. Joining refuses to join nothing, but groups that are made
directly may be empty, and what they leave in the text is a gap where an operand belongs. -/

namespace Tablewright

section Gaps

def Gapped (ts : List Token) : Prop := ∀ outer l, parse outer l (.reading []) ts = none

def Unreadable (ts : List Token) : Prop := ∀ outer l now, parse outer l now ts = none

variable {rest : List Token}

lemma Gapped.of_stops (h : Stops rest) : Gapped rest := by
  intro outer l
  cases rest with
  | nil => simp [parse, Current.expression?, comparison?]
  | cons t rest =>
    rcases h t rfl with rfl | ⟨k, rfl⟩
    · cases outer <;> simp [parse, Token.connective?, Current.expression?, comparison?]
    · simp [parse, Current.expression?, comparison?]

lemma Gapped.opening (h : Gapped rest) : Gapped (.mark '(' :: rest) := by
  intro outer l
  rw [parse_opening]
  exact h _ _

lemma Gapped.unreadable (h : Gapped rest) (k : Connective) : Unreadable (k.token :: rest) := by
  intro outer l now
  simp only [parse, connective?_token]
  cases now.expression? with
  | none => rfl
  | some e => exact h _ _

lemma Unreadable.append (h : Unreadable rest) (ts : List Token) : Unreadable (ts ++ rest) := by
  induction ts with
  | nil => exact h
  | cons t ts ih =>
    -- each token leads to a further state of the reader, or ends the reading
    intro outer l now
    simp only [List.cons_append, parse]
    split
    · cases now.expression? with
      | none => rfl
      | some e => exact ih _ _ _
    · split
      · split
        · exact ih _ _ _
        · rfl
      · split
        · split
          · rfl
          · cases now.expression? with
            | none => rfl
            | some e => exact ih _ _ _
        · split
          · exact ih _ _ _
          · rfl

lemma stops_closing (rest : List Token) : Stops (.mark ')' :: rest) :=
  fun _ ht => Or.inl (Option.some.inj ht).symm

namespace Predicate

lemma gapped_embrace {ts : List Token} (h : ∀ rest, Stops rest → Gapped (ts ++ rest))
    (within : Option Connective) (k : Connective) (hrest : Stops rest) :
    Gapped (embraceTokens within k ts ++ rest) := by
  rw [embraceTokens]
  split
  · rw [List.append_assoc]
    exact (h _ (stops_closing rest)).opening
  · exact h rest hrest

lemma stops_members (k : Connective) (tss : List (List Token)) (hrest : Stops rest) :
    Stops ((tss.flatMap fun ts => k.token :: ts) ++ rest) := by
  cases tss with
  | nil => exact hrest
  | cons ts tss => exact stops_token k _

mutual

lemma gapped_tokens : (p : Predicate) → ¬ p.Solid → ∀ within rest, Stops rest →
    Gapped (p.tokens within ++ rest)
  | comparison c, h, _, _, _ => absurd (.comparison c) h
  | group k [], _, within, rest, hrest => by
    rw [tokens, memberTokens]
    have hnone : ∀ rest, Stops rest → Gapped ([] ++ rest) := fun _ => .of_stops
    exact gapped_embrace hnone within k hrest
  | group k (p :: items), h, within, rest, hrest => by
    rw [tokens, memberTokens]
    refine gapped_embrace (fun rest hrest => ?_) within k hrest
    rw [joinAllTokens, joinTokens, List.append_assoc]
    -- the gap is in the first member or in a later one
    by_cases hp : p.Solid
    · have hitems : ∃ q ∈ items, ¬ q.Solid := by
        by_contra hall
        push Not at hall
        exact h (.group (List.cons_ne_nil p items) (List.forall_mem_cons.mpr ⟨hp, hall⟩))
      exact fun outer l =>
        (unreadable_members k items hitems rest hrest).append _ outer l (.reading [])
    · exact gapped_tokens p hp (some k) _ (stops_members k _ hrest)
  | stray v, _, _, rest, hrest => by
    rw [tokens]
    exact .of_stops hrest

lemma unreadable_members (k : Connective) : (items : List Predicate) → (∃ p ∈ items, ¬ p.Solid) →
    ∀ rest, Stops rest →
      Unreadable (((memberTokens k items).flatMap fun ts => k.token :: ts) ++ rest)
  | [], h, _, _ => absurd h (by simp)
  | p :: items, h, rest, hrest => by
    rw [memberTokens, List.flatMap_cons, List.append_assoc, List.cons_append]
    by_cases hp : p.Solid
    · have hitems : ∃ q ∈ items, ¬ q.Solid := by simpa [hp] using h
      exact (unreadable_members k items hitems rest hrest).append (k.token :: p.tokens (some k))
    · exact (gapped_tokens p hp (some k) _ (stops_members k _ hrest)).unreadable k

end

lemma Flat.parse_isSome_iff {p : Predicate} (hflat : p.Flat) {s : Sql} (h : p.sql none = .ok s) :
    (parse [] {} (.reading []) (p.tokens none)).isSome ↔ p.Solid := by
  constructor
  · intro hsome
    by_contra hsolid
    have hgapped := gapped_tokens p hsolid none [] (fun _ ht => nomatch ht) [] {}
    rw [List.append_nil] at hgapped
    rw [hgapped] at hsome
    cases hsome
  · intro hsolid
    obtain ⟨e, -, hfits⟩ := hflat.fits hsolid h
    have hread := hfits [] [] fun _ ht => nomatch ht
    rw [List.append_nil] at hread
    rw [hread]
    rfl

end Predicate

end Gaps

section Clauses

def clauseEnds : List Token :=
  ["INNER", "WHERE", "ORDER", "LIMIT", "RETURNING"].map Token.keyword

/-- What stands after each `WHERE` and `ON`, up to the next clause. -/
def clauses : List Token → List (List Token)
  | [] => []
  | t :: rest =>
    if t ∈ [Token.keyword "WHERE", .keyword "ON"] then
      rest.takeWhile (· ∉ clauseEnds) :: clauses rest
    else clauses rest

lemma clauses_cons {t : Token} (h : t ∉ [Token.keyword "WHERE", .keyword "ON"])
    (rest : List Token) : clauses (t :: rest) = clauses rest := by
  rw [clauses, if_neg h]

lemma clauses_name (n : List Char) (rest : List Token) :
    clauses (.name n :: rest) = clauses rest := clauses_cons (by simp [Token.keyword]) rest

lemma clauses_append {ts : List Token} (h : ts.Disjoint [.keyword "WHERE", .keyword "ON"])
    (rest : List Token) : clauses (ts ++ rest) = clauses rest := by
  induction ts with
  | nil => rfl
  | cons t ts ih =>
    rw [List.disjoint_cons_left] at h
    rw [List.cons_append, clauses_cons h.1, ih h.2]

lemma takeWhile_clauseEnds {ts rest : List Token} (h : ts.Disjoint clauseEnds)
    (hrest : Opens clauseEnds rest) : (ts ++ rest).takeWhile (· ∉ clauseEnds) = ts := by
  rw [List.takeWhile_append_of_pos fun t ht => by simpa using h ht]
  cases rest with
  | nil => exact List.append_nil ts
  | cons t rest => rw [List.takeWhile_cons_of_neg (by simpa using hrest t rfl), List.append_nil]

lemma clauses_condition {t : Token} (ht : t ∈ [Token.keyword "WHERE", .keyword "ON"])
    (p : Predicate) {rest : List Token} (hrest : Opens clauseEnds rest) :
    clauses (t :: (p.tokens none ++ rest)) = p.tokens none :: clauses rest := by
  rw [clauses, if_pos ht, takeWhile_clauseEnds (p.disjoint_stops none (by decide)) hrest,
    clauses_append (p.disjoint_stops none (by decide))]

lemma clauses_joinsTokens (js : List Join) {rest : List Token} (hrest : Opens clauseEnds rest) :
    clauses (joinsTokens js ++ rest) = js.map (·.on.tokens none) ++ clauses rest := by
  induction js with
  | nil => rfl
  | cons j js ih =>
    have hjoin : Opens clauseEnds (joinsTokens js ++ rest) := by
      cases js with
      | nil => exact hrest
      | cons j js => exact .cons (by decide) _
    rw [joinsTokens, List.append_assoc, List.append_assoc, List.cons_append, List.cons_append,
      List.cons_append, List.cons_append, List.nil_append, clauses_cons (by decide),
      clauses_cons (by decide), clauses_name, clauses_condition (by decide) j.on hjoin, ih,
      List.map_cons, List.cons_append]

lemma clauses_filterTokens (f : Option Predicate) {rest : List Token}
    (hrest : Opens clauseEnds rest) :
    clauses (filterTokens f ++ rest) = f.toList.map (·.tokens none) ++ clauses rest := by
  cases f with
  | none => rfl
  | some p => exact clauses_condition (by decide) p hrest

lemma clauses_eq_nil {ts : List Token} (h : ts.Disjoint [.keyword "WHERE", .keyword "ON"]) :
    clauses ts = [] := by
  have hnil := clauses_append h []
  rwa [List.append_nil] at hnil

lemma disjoint_returningTokens (b : Bool) :
    (returningTokens b).Disjoint [.keyword "WHERE", .keyword "ON"] := by
  cases b <;> simp [returningTokens, Token.keyword]

lemma disjoint_limitTokens (n : Option Nat) :
    (limitTokens n).Disjoint [.keyword "WHERE", .keyword "ON"] := by
  cases n <;> simp [limitTokens, Token.keyword]

namespace Statement

lemma clauses_filterTokens_returning (f : Option Predicate) (b : Bool) :
    clauses (filterTokens f ++ returningTokens b) = f.toList.map (·.tokens none) := by
  rw [clauses_filterTokens f (opens_returningTokens (by decide) b),
    clauses_eq_nil (disjoint_returningTokens b), List.append_nil]

lemma clauses_select (s : Select) :
    clauses (Statement.select s).tokens = (Statement.select s).conditions.map (·.tokens none) := by
  have hitem : ∀ u ∈ [Token.keyword "WHERE", .keyword "ON"], u.inItem = false := by decide
  have htail : (sortingTokens s.sorting ++ limitTokens s.limit).Disjoint
      [.keyword "WHERE", .keyword "ON"] :=
    List.disjoint_append_left.mpr ⟨disjoint_sortingTokens s.sorting hitem (by decide) (by decide),
      disjoint_limitTokens s.limit⟩
  have hkeys : Opens clauseEnds (sortingTokens s.sorting ++ limitTokens s.limit) :=
    (opens_sortingTokens (by decide) _).append (opens_limitTokens (by decide) _)
  have hsource : (s.source.toList.map fun t => Token.name t.name.toList).Disjoint
      [.keyword "WHERE", .keyword "ON"] := by
    cases s.source <;> simp [Token.keyword]
  rw [tokens, Select.tokens, clauses_cons (by decide),
    clauses_append (disjoint_itemTokens _ hitem), clauses_cons (by decide), clauses_append hsource,
    clauses_joinsTokens s.joins ((opens_filterTokens (by decide) s.filter).append hkeys),
    clauses_filterTokens s.filter hkeys, clauses_eq_nil htail, List.append_nil, conditions,
    List.map_append, List.map_map]
  rfl

lemma clauses_insert (s : Insert) : clauses (Statement.insert s).tokens = [] := by
  have hcolumns : (commaTokens (s.assignments.map fun a => [.name a.1.name.toList])).Disjoint
      [.keyword "WHERE", .keyword "ON"] :=
    disjoint_commaTokens (by decide) (List.forall_mem_map.mpr fun a _ => by simp [Token.keyword])
  have hsupplies : (commaTokens (s.assignments.map fun a => a.2.side.tokens)).Disjoint
      [.keyword "WHERE", .keyword "ON"] :=
    disjoint_commaTokens (by decide)
      (List.forall_mem_map.mpr fun a _ => a.2.disjoint_stops (by decide))
  rw [tokens, Insert.tokens, clauses_cons (by decide), clauses_cons (by decide), clauses_name,
    clauses_cons (by decide), clauses_append hcolumns, clauses_cons (by decide),
    clauses_cons (by decide), clauses_cons (by decide), clauses_append hsupplies,
    clauses_cons (by decide), clauses_eq_nil (disjoint_returningTokens s.returning)]

lemma clauses_tokens {s : Statement} (hd : s.isDdl = false) :
    clauses s.tokens = s.conditions.map (·.tokens none) := by
  cases s with
  | select s => exact clauses_select s
  | insert s => exact clauses_insert s
  | update s =>
    rw [tokens, Update.tokens, clauses_cons (by decide), clauses_name, clauses_cons (by decide),
      clauses_append (disjoint_setTokens s.assignments (by decide)),
      clauses_filterTokens_returning, conditions]
  | delete s =>
    rw [tokens, Delete.tokens, clauses_cons (by decide), clauses_cons (by decide), clauses_name,
      clauses_filterTokens_returning, conditions]
  | ddl d => cases hd

end Statement

end Clauses

/-- Every condition in the text is an expression: it is not empty, each connective has an operand on
either side, and each pair of parentheses encloses an expression. -/
def WellFormed (sql : String) : Prop :=
  ∀ ts ∈ clauses (tokens sql), (parse [] {} (.reading []) ts).isSome

namespace Statement

variable {s : Statement}

lemma wellFormed_iff (hd : s.isDdl = false) {c : Compiled} (h : s.compile = .ok c) :
    WellFormed c.sql ↔ ∀ p ∈ s.conditions, p.opened.Solid := by
  have hsql := exists_sql_of_compile h
  have hflat : ∀ p ∈ s.conditions, p.opened.Flat := fun p hp =>
    have ⟨_, ht⟩ := hsql p hp
    (p.whole_of_sql ht).flat_opened
  rw [WellFormed, tokens_compile hd h, clauses_tokens (s.isDdl_opened.trans hd), s.conditions_opened, List.map_map,
    List.forall_mem_map]
  refine forall₂_congr fun p hp => ?_
  obtain ⟨t, ht⟩ := hsql p hp
  exact (hflat p hp).parse_isSome_iff ((p.sql_opened none).trans ht)

/-- Either a statement is refused by the builder, or every condition in its text is an expression;
unless a condition of the statement, its groups opened, still has an empty group in it. -/
theorem compile_wellFormed_iff (hd : s.isDdl = false) :
    ((∃ b, s.compile = .error (.build b)) ∨ ∃ c, s.compile = .ok c ∧ WellFormed c.sql) ↔
      (∃ b, s.compile = .error (.build b)) ∨ ∀ p ∈ s.conditions, p.opened.Solid := by
  cases h : s.compile with
  | ok c => simp [wellFormed_iff hd h]
  | error e =>
    obtain ⟨b, rfl⟩ | ⟨⟨f, rfl⟩, p, hp, hstray⟩ := compile_eq_error h
    · simp
    · have hsolid : ¬ p.opened.Solid := by
        intro hsolid
        have hwhole : p.opened.Whole := hsolid.mono fun _ _ _ => trivial
        have hcolumns := Predicate.Whole.exists_columns hwhole
        rw [p.columns_opened] at hcolumns
        exact hstray (p.whole_of_columns hcolumns)
      simpa using ⟨p, hp, hsolid⟩

end Statement

namespace Hollow

open Moved (keyed)

def emptyGroup : Predicate := .group .and []

def selection : List Step := [.source (.table (keyed "note")), .restrict (.predicate emptyGroup)]

end Hollow

open Hollow in
theorem Statement.compile_wellFormed_iff_hollow :
    ∃ s, Opening.build (.select []) selection = .ok s ∧ s.isDdl = false ∧
      (((∃ b, s.compile = .error (.build b)) ∨ ∃ c, s.compile = .ok c ∧ WellFormed c.sql) ↔
        (∃ b, s.compile = .error (.build b)) ∨ ∀ p ∈ s.conditions, p.opened.Solid) :=
  ⟨_, rfl, rfl, compile_wellFormed_iff rfl⟩

open Hollow in
/-- Joining takes a group that is empty for a condition like any other and then opens it, so that
nothing is left to follow `WHERE`. -/
theorem Statement.compile_hollow :
    Term.combine .and [.predicate emptyGroup] = .ok (.predicate emptyGroup) ∧
      ∃ s c, Opening.build (.select []) selection = .ok s ∧ s.compile = .ok c ∧
        c.sql = "SELECT \"note\".\"id\" FROM \"note\" WHERE " ∧ ¬ WellFormed c.sql := by
  have hcompiled : ∃ s c, Opening.build (.select []) selection = .ok s ∧ s.compile = .ok c ∧
      c.sql = "SELECT \"note\".\"id\" FROM \"note\" WHERE " :=
    ⟨_, _, rfl, rfl, by decide +kernel⟩
  have hclauses : clauses (Tablewright.tokens "SELECT \"note\".\"id\" FROM \"note\" WHERE ") =
      [[]] := by
    decide +kernel
  obtain ⟨s, c, hs, hc, hsql⟩ := hcompiled
  refine ⟨rfl, s, c, hs, hc, hsql, fun h => ?_⟩
  rw [WellFormed, hsql, hclauses] at h
  exact absurd (h [] List.mem_cons_self) (by decide)

end Tablewright
