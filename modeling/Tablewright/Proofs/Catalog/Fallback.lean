import Tablewright.Proofs.Catalog.Colon

/-! Defaults in the definitions of columns. What stands after `DEFAULT` has to be of one of a few
forms: a number with or without a sign, a text, a run of bytes, one of a few words, or an expression
in parentheses. -/

namespace Tablewright

def valueWords : List String :=
  ["NULL", "TRUE", "FALSE", "CURRENT_TIME", "CURRENT_DATE", "CURRENT_TIMESTAMP"]

/-- Whether the last token closes the parenthesis that is open, and none before it does. -/
def closes : Nat → List Token → Bool
  | _, [] => false
  | depth, t :: rest =>
    if t = .bad ∨ t = .hole then false
    else if t = .mark '(' then closes (depth + 1) rest
    else if t = .mark ')' then if depth = 0 then rest.isEmpty else closes (depth - 1) rest
    else closes depth rest

def isFallback : List Token → Bool
  | [.number _] | [.text _] | [.blob _] => true
  | [.word w] => valueWords.contains (String.ofList (w.map Char.toUpper))
  | [.mark sign, .number _] => sign = '+' || sign = '-'
  | .mark c :: first :: rest => c = '(' && first != .mark ')' && closes 0 (first :: rest)
  | _ => false

/-- A text of an accepted form, which no comment goes on behind. -/
def isAccepted (sql : String) : Bool := settles sql && isFallback (scan sql)

section Outlines

lemma closes_outline (depth : Nat) (ts : List Token) :
    closes depth (ts.map Token.outline) = closes depth ts := by
  induction ts generalizing depth with
  | nil => rfl
  | cons t ts ih =>
    rw [List.map_cons, closes, closes, ih, ih, ih, List.isEmpty_map]
    cases t <;> rfl

lemma isFallback_outline (ts : List Token) : isFallback (ts.map Token.outline) = isFallback ts := by
  match ts with
  | [] => rfl
  | [t] => cases t <;> rfl
  | t :: u :: rest =>
    have hcloses := closes_outline 0 (u :: rest)
    cases t with
    | mark c => cases u <;> cases rest <;> first | rfl | exact congrArg (_ && ·) hcloses
    | _ => rfl

lemma bad_notMem_of_closes {depth : Nat} {ts : List Token} (h : closes depth ts = true) :
    .bad ∉ ts := by
  induction ts generalizing depth with
  | nil => exact List.not_mem_nil
  | cons t ts ih =>
    rw [closes] at h
    split_ifs at h with hbad
    all_goals
      have hne : .bad ≠ t := fun ht => hbad (Or.inl ht.symm)
      refine List.not_mem_cons_of_ne_of_not_mem hne ?_
    · exact ih h
    · rw [List.isEmpty_iff.mp h]
      exact List.not_mem_nil
    · exact ih h
    · exact ih h

lemma bad_notMem_of_isFallback {ts : List Token} (h : isFallback ts = true) : .bad ∉ ts := by
  rw [isFallback.eq_def] at h
  split at h
  case h_6 =>
    rw [Bool.and_eq_true] at h
    exact List.not_mem_cons_of_ne_of_not_mem (by simp) (bad_notMem_of_closes h.2)
  case h_7 => cases h
  all_goals simp

lemma isAccepted_iff {sql : String} :
    isAccepted sql = true ↔ settles sql = true ∧ isFallback (scan sql) = true := by
  rw [isAccepted, Bool.and_eq_true]

lemma isAccepted_plainColons {sql : String} (h : isAccepted sql = true) :
    isAccepted (String.ofList (ServerDefault.plainColons sql.toList)) = true := by
  rw [isAccepted_iff] at h ⊢
  obtain ⟨htokens, hsettles⟩ := scan_plainColons (bad_notMem_of_isFallback h.2) rfl
  rw [hsettles, ← isFallback_outline, htokens, isFallback_outline]
  exact h

end Outlines

def fallbackTokens : Option String → List Token
  | none => []
  | some sql => .keyword "DEFAULT" :: scan sql

namespace Column

def bare (c : Column) : Column := { c with fallback := none, references := none }

def definition (c : Column) : List Token :=
  c.bare.tokens ++ (fallbackTokens c.fallback ++ referenceTokens c.references)

def Defaults (c : Column) (form : List Token) : Prop :=
  scan c.sql.text = c.bare.tokens ++ (.keyword "DEFAULT" :: form ++ referenceTokens c.references)

def HasDefault (c : Column) : Prop := ∃ form, isFallback form = true ∧ c.Defaults form

end Column

def Table.creation (t : Table) : List Token :=
  [.keyword "CREATE", .keyword "TABLE", .name t.name.toList, .mark '('] ++
    (commaTokens (t.columns.map (·.definition)) ++ [.mark ')'])

section Standing

def fallbackSql : Option String → Sql
  | none => []
  | some sql => [.word (" DEFAULT " ++ sql)]

def referenceSql : Option ForeignKey → Sql
  | none => []
  | some r => [.word " REFERENCES ", .name r.table, .word "(", .name r.column, .word ")"]

def Steady (fallback : Option String) : Prop :=
  ∀ sql, fallback = some sql → Stands sql.toList (scan sql)

lemma Column.sql_eq (c : Column) :
    c.sql = c.bare.sql ++ (fallbackSql c.fallback ++ referenceSql c.references) := by
  obtain ⟨_, _, _, _, references, _, fallback⟩ := c
  cases fallback <;> cases references <;>
    simp only [sql, bare, fallbackSql, referenceSql, List.append_nil, List.append_assoc] <;> rfl

lemma Column.stands_bare (c : Column) : c.bare.sql.Stands c.bare.tokens := by
  refine (spells rfl).stands ?_
  obtain ⟨_, _, notNull, primaryKey, _, unique, _⟩ := c
  cases notNull <;> cases primaryKey <;> cases unique <;>
    simp [bare, tokens, flagTokens, referenceTokens, Token.keyword, Token.isPlain]

lemma stands_reference (references : Option ForeignKey) :
    (referenceSql references).Stands (referenceTokens references) := by
  cases references with
  | none => exact fun _ _ => rfl
  | some r =>
    refine r.spells.stands ?_
    simp [referenceTokens, Token.keyword, Token.isPlain]

lemma stands_fallback {fallback : Option String} (h : Steady fallback) :
    (fallbackSql fallback).Stands (fallbackTokens fallback) := by
  cases fallback with
  | none => exact fun _ _ => rfl
  | some sql =>
    intro rest hrest
    have hrun : (Scan.reading .ready).run " DEFAULT ".toList =
        ([.keyword "DEFAULT"], .reading .ready) := by decide
    rw [fallbackSql, Sql.toList_text_cons, Piece.text, String.toList_append, List.append_assoc,
      List.append_assoc, Scan.scanFrom_append, hrun]
    exact congrArg (.keyword "DEFAULT" :: ·) (h sql rfl rest hrest)

lemma leads_fallback (fallback : Option String) : (fallbackSql fallback).Leads := by
  cases fallback with
  | none => exact .nil
  | some sql => exact .word ⟨' ', by simp, Or.inl rfl⟩

lemma leads_reference (references : Option ForeignKey) : (referenceSql references).Leads := by
  cases references with
  | none => exact .nil
  | some r => exact .word ⟨' ', by decide, by decide⟩

lemma Column.stands {c : Column} (h : Steady c.fallback) : c.sql.Stands c.definition := by
  have hreference := stands_reference c.references
  have hclauses := (stands_fallback h).append hreference (leads_reference c.references)
  rw [sql_eq]
  exact c.stands_bare.append hclauses ((leads_fallback _).append (leads_reference _))

lemma Column.defaults_iff {c : Column} {sql : String} (h : c.fallback = some sql)
    (hsql : Stands sql.toList (scan sql)) {form : List Token} :
    c.Defaults form ↔ form = scan sql := by
  have hsteady : Steady c.fallback := by
    intro sql' hsql'
    obtain rfl := Option.some.inj (h.symm.trans hsql')
    exact hsql
  have hread : scan c.sql.text =
      c.bare.tokens ++ (.keyword "DEFAULT" :: scan sql ++ referenceTokens c.references) := by
    rw [(Column.stands hsteady).scan_eq, definition, h]
    rfl
  rw [Defaults, hread]
  constructor
  · intro heq
    have hclause := List.append_cancel_right (List.append_cancel_left heq)
    exact (List.cons.inj hclause).2.symm
  · rintro rfl
    rfl

lemma Table.scan_eq_creation {t : Table} (h : ∀ c ∈ t.columns, Steady c.fallback) :
    scan (Ddl.createTable t).sql.text = t.creation := by
  have hclosing : Sql.Stands [.word ")"] [.mark ')'] :=
    (Sql.Spells.nil.word (w := ")") [.mark ')'] (by decide)).stands (by decide)
  have hcolumns := (Sql.Stands.commas_map fun c hc => Column.stands (h c hc)).append hclosing
    (.word ⟨')', by decide, by decide⟩)
  have hname := (hcolumns.word (w := " (") [.mark '('] (by decide)).name (n := t.name)
    (.word ⟨' ', by decide, by decide⟩)
  exact (hname.word (w := "CREATE TABLE ") [.keyword "CREATE", .keyword "TABLE"]
    (by decide)).scan_eq

end Standing

end Tablewright
