import Tablewright.Proofs.Statement.Outline

namespace Tablewright

/-- The names after the words that bring a table into a selection. -/
def namedTables : List Token → List (List Char)
  | [] => []
  | t :: rest =>
    if t = .keyword "FROM" ∨ t = .keyword "JOIN" then
      match rest.head? with
      | some (.name n) => n :: namedTables rest
      | _ => namedTables rest
    else namedTables rest

lemma namedTables_cons {t : Token} (h : t ∉ [Token.keyword "FROM", .keyword "JOIN"])
    (rest : List Token) : namedTables (t :: rest) = namedTables rest := by
  rw [namedTables, if_neg]
  simpa using h

lemma namedTables_append {ts : List Token} (h : ts.Disjoint [.keyword "FROM", .keyword "JOIN"])
    (rest : List Token) : namedTables (ts ++ rest) = namedTables rest := by
  induction ts with
  | nil => rfl
  | cons t ts ih =>
    rw [List.disjoint_cons_left] at h
    rw [List.cons_append, namedTables_cons h.1, ih h.2]

lemma namedTables_from (n : List Char) (rest : List Token) :
    namedTables (.keyword "FROM" :: .name n :: rest) = n :: namedTables rest := by
  rw [namedTables, if_pos (Or.inl rfl)]
  exact congrArg (n :: ·) (namedTables_cons (by simp [Token.keyword]) rest)

lemma namedTables_join (n : List Char) (rest : List Token) :
    namedTables (.keyword "JOIN" :: .name n :: rest) = n :: namedTables rest := by
  rw [namedTables, if_pos (Or.inr rfl)]
  exact congrArg (n :: ·) (namedTables_cons (by simp [Token.keyword]) rest)

section Texts

lemma namedTables_joinsTokens (js : List Join) (rest : List Token) :
    namedTables (joinsTokens js ++ rest) =
      js.map (·.table.name.toList) ++ namedTables rest := by
  induction js with
  | nil => rfl
  | cons j js ih =>
    have hcondition : (j.on.tokens none).Disjoint [.keyword "FROM", .keyword "JOIN"] :=
      j.on.disjoint_stops none (by decide)
    rw [joinsTokens, List.append_assoc, List.append_assoc, List.cons_append, List.cons_append,
      List.cons_append, List.cons_append, List.nil_append, namedTables_cons (by decide),
      namedTables_join, namedTables_cons (by decide), namedTables_append hcondition,
      ih, List.map_cons, List.cons_append]

lemma Select.namedTables_tokens {s : Select} {source : Table} (hsource : s.source = some source) :
    namedTables s.tokens = s.tableNames.map (·.toList) := by
  have hwhere : (filterTokens s.filter).Disjoint [.keyword "FROM", .keyword "JOIN"] :=
    disjoint_filterTokens s.filter (by decide) (by decide)
  have hsorting : (sortingTokens s.sorting).Disjoint [.keyword "FROM", .keyword "JOIN"] :=
    disjoint_sortingTokens s.sorting (by decide) (by decide) (by decide)
  have hlimit : namedTables (limitTokens s.limit) = [] := by
    cases s.limit <;> rfl
  rw [tokens, hsource, namedTables_cons (by decide),
    namedTables_append (disjoint_itemTokens _ (by decide))]
  simp only [Option.toList_some, List.map_cons, List.map_nil, List.cons_append, List.nil_append]
  rw [namedTables_from, namedTables_joinsTokens, namedTables_append hwhere,
    namedTables_append hsorting, hlimit, tableNames, tables, hsource]
  simp [Function.comp_def]

end Texts

namespace Step

def source? : Step → Option Table
  | source (.table t) => some t
  | _ => none

def joined? : Step → Option Table
  | innerJoin (.table t) _ => some t
  | _ => none

lemma exists_last_source (steps : List Step) :
    (∀ c ∈ steps, c.source? = none) ∨
      ∃ before t after, steps = before ++ source (.table t) :: after ∧
        ∀ c ∈ after, c.source? = none := by
  induction steps with
  | nil => exact Or.inl (List.forall_mem_nil _)
  | cons c steps ih =>
    obtain hnone | ⟨before, t, after, rfl, hafter⟩ := ih
    · cases hc : c.source? with
      | none => exact Or.inl (List.forall_mem_cons.mpr ⟨hc, hnone⟩)
      | some t =>
        obtain rfl : c = source (.table t) := by
          cases c with
          | source u =>
            cases u with
            | table u => exact congrArg (source ∘ Term.table) (Option.some.inj hc)
            | _ => cases hc
          | _ => cases hc
        exact Or.inr ⟨[], t, steps, rfl, hnone⟩
    · exact Or.inr ⟨c :: before, t, after, rfl, hafter⟩

end Step

namespace Statement

lemma Built.takes {schema : Schema} {s s' : Statement} {steps : List Step} (hs : s.Built schema)
    (hsteps : ∀ c ∈ steps, c.Over schema) (h : s.takes steps = .ok s') : s'.Built schema :=
  takes_induction (fun c hc hs h => hs.step (hsteps c hc) h.step_eq_ok) hs h

end Statement

namespace Select

def joined (s : Select) : List Table := s.joins.map (·.table)

structure Scoped (s : Select) (steps : List Step) (t : Select) : Prop where
  joined : t.joined = s.joined ++ steps.filterMap (·.joined?)
  distinct : (s.joined.map (·.name)).Nodup → (t.joined.map (·.name)).Nodup
  source : (∀ c ∈ steps, c.source? = none) → t.source = s.source
  scope : (∀ c ∈ steps, c.source? = none) → s.tableNames.Nodup → t.tableNames.Nodup

lemma tableNames_eq (s : Select) :
    s.tableNames = s.source.toList.map (·.name) ++ s.joined.map (·.name) := List.map_append

lemma Scoped.refl (s : Select) : s.Scoped [] s where
  joined := (List.append_nil _).symm
  distinct := id
  source _ := rfl
  scope _ := id

lemma Scoped.cons {s t u : Select} {c : Step} {steps : List Step} (hc : s.Scoped [c] t)
    (hsteps : t.Scoped steps u) : s.Scoped (c :: steps) u where
  joined := by
    rw [hsteps.joined, hc.joined, List.append_assoc, ← List.filterMap_append]
    rfl
  distinct h := hsteps.distinct (hc.distinct h)
  source h := by
    rw [List.forall_mem_cons] at h
    rw [hsteps.source h.2, hc.source (List.forall_mem_singleton.mpr h.1)]
  scope h hs := by
    rw [List.forall_mem_cons] at h
    exact hsteps.scope h.2 (hc.scope (List.forall_mem_singleton.mpr h.1) hs)

lemma Scoped.of_same {s t : Select} {c : Step} (hc : c.joined? = none) (hsource : t.source = s.source)
    (hjoins : t.joins = s.joins) : s.Scoped [c] t := by
  have hjoined : t.joined = s.joined := by rw [Select.joined, hjoins, Select.joined]
  refine ⟨?_, fun h => hjoined ▸ h, fun _ => hsource, fun _ h => ?_⟩
  · rw [hjoined, List.filterMap_cons_none hc, List.filterMap_nil, List.append_nil]
  · rwa [tableNames_eq, hsource, hjoined, ← tableNames_eq]

lemma Scoped.innerJoin {s : Select} {u : Table} {on : Term} {p : Predicate}
    (hnew : u.name ∉ s.tableNames) :
    s.Scoped [.innerJoin (.table u) on] { s with joins := s.joins ++ [⟨u, p⟩] } := by
  have hjoined : ({ s with joins := s.joins ++ [⟨u, p⟩] } : Select).joined = s.joined ++ [u] :=
    List.map_append
  have hadded : ∀ {names : List String}, u.name ∉ names → names.Nodup →
      (names ++ [u.name]).Nodup := fun hu hnames =>
    List.concat_eq_append ▸ hnames.concat hu
  rw [tableNames_eq] at hnew
  refine ⟨hjoined, fun hs => ?_, fun _ => rfl, fun _ hs => ?_⟩
  · rw [hjoined, List.map_append]
    exact hadded (fun hu => hnew (List.mem_append_right _ hu)) hs
  · rw [tableNames_eq] at hs
    rw [tableNames_eq, hjoined, List.map_append, ← List.append_assoc]
    exact hadded hnew hs

lemma Scoped.selectFrom (s : Select) (u : Table) :
    s.Scoped [.source (.table u)] (s.selectFrom u) where
  joined := (List.append_nil _).symm
  distinct := id
  source h := nomatch List.forall_mem_singleton.mp h
  scope h := nomatch List.forall_mem_singleton.mp h

lemma exists_scoped_of_moves {s : Select} {c : Step} {s' : Statement}
    (h : (Statement.select s).Moves c s') : ∃ t, s' = .select t ∧ s.Scoped [c] t := by
  cases h with
  | source s t => exact ⟨_, rfl, .selectFrom s t⟩
  | innerJoin hnew _ => exact ⟨_, rfl, .innerJoin hnew⟩
  | restrict _ _ _ => exact ⟨_, rfl, .of_same rfl rfl rfl⟩
  | sortBy s column descending => exact ⟨_, rfl, .of_same rfl rfl rfl⟩
  | limit s n => exact ⟨_, rfl, .of_same rfl rfl rfl⟩
  | returning hwrite _ => cases hwrite

lemma exists_scoped_of_takes {s : Select} {steps : List Step} {s' : Statement}
    (h : (Statement.select s).takes steps = .ok s') : ∃ t, s' = .select t ∧ s.Scoped steps t := by
  induction steps generalizing s with
  | nil => exact ⟨s, (Except.ok.inj h).symm, .refl s⟩
  | cons c steps ih =>
    obtain ⟨u, hu, h⟩ := Statement.takes_cons_eq_ok.mp h
    obtain ⟨u, rfl, hc⟩ := exists_scoped_of_moves (Statement.moves_of_step hu)
    obtain ⟨t, rfl, hsteps⟩ := ih h
    exact ⟨t, rfl, hc.cons hsteps⟩

end Select

/-- The text of a selection names the table that it was last moved to, then the joined ones. It
names no table twice, unless that table was one of those joined before the move. -/
theorem namedTables_nodup_iff {schema : Schema} {terms : List Term} {steps : List Step}
    (hterms : ∀ t ∈ terms, t.Over schema) (hsteps : ∀ c ∈ steps, c.Over schema)
    {s₀ s : Statement} (hstart : Statement.start (.select terms) = .ok s₀)
    (hs : s₀.takes steps = .ok s) {c : Compiled} (hc : s.compile = .ok c) :
    ∃ before t after, steps = before ++ .source (.table t) :: after ∧
      (∀ d ∈ after, d.source? = none) ∧
      namedTables (tokens c.sql) = (t :: steps.filterMap (·.joined?)).map (·.name.toList) ∧
      ((namedTables (tokens c.sql)).Nodup ↔ t.name ∉ (before.filterMap (·.joined?)).map (·.name)) := by
  have hopened := Statement.Built.start (o := .select terms) hterms hstart
  have hneat := (hopened.takes hsteps hs).neat
  have htokens := Statement.tokens_sql hneat hc
  obtain ⟨sql, hsql, -⟩ := map_eq_ok_iff.mp hc
  obtain ⟨items, -, rfl⟩ := map_eq_ok_iff.mp hstart
  obtain ⟨v, rfl, hscoped⟩ := Select.exists_scoped_of_takes hs
  obtain ⟨source, -, -, hcheck, -⟩ := Select.sql_eq_ok hsql
  have hsource := Select.check_eq_ok hcheck
  obtain hnone | ⟨before, t, after, rfl, hafter⟩ := Step.exists_last_source steps
  · have hunmoved := hscoped.source hnone
    rw [hsource] at hunmoved
    cases hunmoved
  -- until the move only the joined tables are known to be distinct, from then on all tables
  obtain ⟨_, hbefore, hrest⟩ := Statement.takes_append_eq_ok.mp hs
  obtain ⟨w, rfl, hjoinedBefore⟩ := Select.exists_scoped_of_takes hbefore
  obtain ⟨_, hmoved, hrest⟩ := Statement.takes_cons_eq_ok.mp hrest
  obtain rfl := Except.ok.inj hmoved
  obtain ⟨_, heq, hsettled⟩ := Select.exists_scoped_of_takes hrest
  obtain rfl := Statement.select.inj heq
  have hnames : v.tableNames =
      (t :: (before ++ .source (.table t) :: after).filterMap (·.joined?)).map (·.name) := by
    rw [Select.tableNames_eq, hsettled.source hafter, hscoped.joined]
    rfl
  have htext : namedTables (tokens c.sql) = v.tableNames.map (·.toList) := by
    rw [htokens]
    exact Select.namedTables_tokens hsource
  have hmovedNames : (w.selectFrom t).tableNames =
      t.name :: (before.filterMap (·.joined?)).map (·.name) := by
    rw [Select.tableNames_eq]
    exact congrArg (t.name :: ·) (congrArg (List.map _) hjoinedBefore.joined)
  have hdistinct : ((before.filterMap (·.joined?)).map (·.name)).Nodup := by
    have hjoined := hjoinedBefore.distinct List.nodup_nil
    rwa [hjoinedBefore.joined] at hjoined
  refine ⟨before, t, after, rfl, hafter, ?_, ?_⟩
  · rw [htext, hnames, List.map_map]
    rfl
  · rw [htext, List.nodup_map_iff fun _ _ => String.toList_inj.mp]
    constructor
    · intro hnodup
      rw [hnames, List.map_cons, List.nodup_cons, List.filterMap_append] at hnodup
      exact fun ht => hnodup.1 (by rw [List.map_append]; exact List.mem_append_left _ ht)
    · intro ht
      exact hsettled.scope hafter (hmovedNames ▸ List.nodup_cons.mpr ⟨ht, hdistinct⟩)

namespace Moved

def key : Column := { name := "id", kind := .integer, primaryKey := true }

def keyed (name : String) : Table := ⟨name, [key]⟩

def tables : List Table := ["a", "b", "c"].map keyed

def schema : Schema := .ofDescriptions tables []

def isOne (name : String) : Predicate :=
  .comparison ⟨(keyed name).column key, .eq, .supply (.param { value := some (.int 1) })⟩

def steps (first joined last : String) : List Step :=
  [.source (.table (keyed first)),
    .innerJoin (.table (keyed joined)) (.predicate (isOne joined)),
    .source (.table (keyed last))]

lemma steps_over {first joined last : String}
    (hnames : ∀ n ∈ [first, joined, last], n ∈ ["a", "b", "c"]) :
    ∀ c ∈ steps first joined last, c.Over schema := by
  have htable : ∀ n ∈ [first, joined, last], keyed n ∈ schema.tables.values := fun n hn =>
    List.mem_map_of_mem (hnames n hn)
  have hcolumn : schema.Declares ((keyed joined).column key) :=
    ⟨keyed joined, htable joined (by simp), List.mem_singleton_self _⟩
  have hvalue : ∀ d, Term.supply (.param { value := some (.int 1) }) = .column d →
      schema.Declares d := nofun
  have hcompare : Term.compare (.column ((keyed joined).column key)) (.text "=")
      (.supply (.param { value := some (.int 1) })) = .ok (isOne joined) := rfl
  have hjoin : (Step.innerJoin (.table (keyed joined)) (.predicate (isOne joined))).Over schema :=
    ⟨htable joined (by simp), .compare hcolumn hvalue hcompare⟩
  simp only [steps, List.forall_mem_cons]
  exact ⟨htable first (by simp), hjoin, htable last (by simp), List.forall_mem_nil _⟩

end Moved

open Moved in
theorem namedTables_nodup_iff_moved :
    Schema.build Moved.tables [] = .ok Moved.schema ∧
      (∀ c ∈ steps "a" "b" "c", c.Over Moved.schema) ∧
      ∃ s₀ s c, Statement.start (.select []) = .ok s₀ ∧ s₀.takes (steps "a" "b" "c") = .ok s ∧
        s.compile = .ok c ∧
        ∃ before t after, steps "a" "b" "c" = before ++ .source (.table t) :: after ∧
          (∀ d ∈ after, d.source? = none) ∧
          namedTables (tokens c.sql) =
            (t :: (steps "a" "b" "c").filterMap (·.joined?)).map (·.name.toList) ∧
          ((namedTables (tokens c.sql)).Nodup ↔
            t.name ∉ (before.filterMap (·.joined?)).map (·.name)) := by
  have hsteps : ∀ c ∈ steps "a" "b" "c", c.Over Moved.schema := steps_over (by decide)
  have hcompiled : ∃ s₀ s c, Statement.start (.select []) = .ok s₀ ∧
      s₀.takes (steps "a" "b" "c") = .ok s ∧ s.compile = .ok c := ⟨_, _, _, rfl, rfl, rfl⟩
  obtain ⟨s₀, s, c, hstart, hs, hc⟩ := hcompiled
  exact ⟨rfl, hsteps, s₀, s, c, hstart, hs, hc,
    namedTables_nodup_iff (List.forall_mem_nil _) hsteps hstart hs hc⟩

open Moved in
/-- A selection that is moved to the table joined to it joins that table to itself. -/
theorem namedTables_repeated :
    Schema.build Moved.tables [] = .ok Moved.schema ∧
      (∀ c ∈ steps "a" "b" "b", c.Over Moved.schema) ∧
      ∃ s₀ s c, Statement.start (.select []) = .ok s₀ ∧ s₀.takes (steps "a" "b" "b") = .ok s ∧
        s.compile = .ok c ∧ ¬ (namedTables (tokens c.sql)).Nodup := by
  have hsteps : ∀ c ∈ steps "a" "b" "b", c.Over Moved.schema := steps_over (by decide)
  exact ⟨rfl, hsteps, _, _, _, rfl, rfl, rfl, by decide +kernel⟩

end Tablewright
