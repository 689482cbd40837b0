import Tablewright.Proofs.Statement.Decoding

namespace Tablewright

def flagTokens (flag : Bool) (words : List String) : List Token :=
  if flag then words.map .keyword else []

def referenceTokens : Option ForeignKey → List Token
  | none => []
  | some r => [.keyword "REFERENCES", .name r.table.toList, .mark '(', .name r.column.toList,
      .mark ')']

def Column.tokens (c : Column) : List Token :=
  .name c.name.toList :: .keyword c.kind.name ::
    (flagTokens c.primaryKey ["PRIMARY", "KEY"] ++ (flagTokens c.unique ["UNIQUE"] ++
      (flagTokens c.notNull ["NOT", "NULL"] ++ referenceTokens c.references)))

def Ddl.tokens : Ddl → List Token
  | createTable t => .keyword "CREATE" :: .keyword "TABLE" :: .name t.name.toList :: .mark '(' ::
      (commaTokens (t.columns.map (·.tokens)) ++ [.mark ')'])
  | addColumn table c => .keyword "ALTER" :: .keyword "TABLE" :: .name table.toList ::
      .keyword "ADD" :: .keyword "COLUMN" :: c.tokens
  | createIndex i => .keyword "CREATE" :: (flagTokens i.unique ["UNIQUE"] ++
      [.keyword "INDEX", .keyword "IF", .keyword "NOT", .keyword "EXISTS", .name i.name.toList,
        .keyword "ON", .name i.table.toList, .mark '('] ++
      (commaTokens (i.columns.map fun c => [.name c.toList]) ++ [.mark ')']))
  | dropIndex i => [.keyword "DROP", .keyword "INDEX", .keyword "IF", .keyword "EXISTS",
      .name i.name.toList]

/-- A statement makes a table, a column or an index, and no column in it has a default. -/
def Ddl.Makes : Ddl → Prop
  | createTable t => ∀ c ∈ t.columns, c.fallback = none
  | addColumn _ c => c.fallback = none
  | createIndex _ => True
  | dropIndex _ => False

section Spelled

open Sql (Spells Leads)

lemma Sql.Spells.lastWord {w : String} (ts : List Token) (last : String)
    (hw : Reading.run .ready w.toList = (ts, .word last.toList.reverse)) :
    Spells [.word w] (ts ++ [.keyword last]) := by
  intro rest hrest
  have hends : tokensFrom (.word last.toList.reverse) rest =
      .keyword last :: tokensFrom .ready rest := by
    rw [tokensFrom_of_ends hrest (by simp [Reading.next, Reading.continuesWord, Reading.startsWord])
      (by simp [Reading.next, Reading.continuesWord, Reading.startsWord])
      (by simp [Reading.next, Reading.continuesWord, Reading.startsWord]), Reading.finish,
      List.reverse_reverse]
    rfl
  rw [Sql.toList_text_cons, Piece.text, List.append_assoc, tokensFrom_append, hw, List.append_assoc]
  exact congrArg (ts ++ ·) hends

lemma Sql.Spells.nameOpening {s : Sql} {us : List Token} {n w : String}
    (hs : Spells (.word w :: s) us) (hw : w.toList.head? = some '(') :
    Spells (.name n :: .word w :: s) (.name n.toList :: us) := by
  intro rest hrest
  obtain ⟨cs, hcs⟩ := List.head?_eq_some_iff.mp hw
  have hhead : ((Sql.text (.word w :: s)).toList ++ rest).head? ≠ some '"' := by
    rw [Sql.toList_text_cons, Piece.text, hcs]
    simp
  rw [Sql.toList_text_cons, Piece.text, List.append_assoc, tokensFrom_quoteIdentifier n hhead,
    hs rest hrest]
  rfl

lemma Sql.Spells.flag {s : Sql} {ts : List Token} {w : String} (words : List String)
    (hs : s.Spells ts) (hword : Spells [.word w] (words.map Token.keyword)) (hled : Leads [.word w])
    (flag : Bool) :
    Spells (s ++ if flag then [.word w] else []) (ts ++ flagTokens flag words) := by
  cases flag with
  | false => exact hs.append .nil .nil
  | true => exact hs.append hword hled

lemma ForeignKey.spells (r : ForeignKey) :
    Spells [.word " REFERENCES ", .name r.table, .word "(", .name r.column, .word ")"]
      (referenceTokens (some r)) := by
  have hclosing := Spells.nil.word (w := ")") [.mark ')'] (by decide)
  have hcolumn := (hclosing.name (n := r.column) (.word ⟨')', by decide, by decide⟩)).word
    (w := "(") [.mark '('] (by decide)
  exact (hcolumn.nameOpening (n := r.table) rfl).word (w := " REFERENCES ")
    [.keyword "REFERENCES"] (by decide)

lemma Column.spells {c : Column} (h : c.fallback = none) : c.sql.Spells c.tokens := by
  obtain ⟨name, kind, notNull, primaryKey, references, unique, fallback⟩ := c
  obtain rfl : fallback = none := h
  have hkind : Spells [.word (" " ++ kind.name)] [.keyword kind.name] := by
    cases kind <;> exact Spells.lastWord [] _ (by decide)
  have hblank : (" " ++ kind.name).toList.head? = some ' ' := by
    cases kind <;> decide
  have hprimaryKey : Spells [.word " PRIMARY KEY"] [.keyword "PRIMARY", .keyword "KEY"] :=
    Spells.lastWord [.keyword "PRIMARY"] "KEY" (by decide)
  have hunique : Spells [.word " UNIQUE"] [.keyword "UNIQUE"] :=
    Spells.lastWord [] "UNIQUE" (by decide)
  have hnotNull : Spells [.word " NOT NULL"] [.keyword "NOT", .keyword "NULL"] :=
    Spells.lastWord [.keyword "NOT"] "NULL" (by decide)
  have hled (w : String) (hw : w.toList.head? = some ' ') : Leads [.word w] :=
    .word ⟨' ', hw, Or.inl rfl⟩
  have hflags := (((hkind.name (n := name) (hled _ hblank)).flag ["PRIMARY", "KEY"] hprimaryKey
    (hled _ (by decide)) primaryKey).flag ["UNIQUE"] hunique (hled _ (by decide)) unique).flag
      ["NOT", "NULL"] hnotNull (hled _ (by decide)) notNull
  cases references with
  | none =>
    refine Eq.mp (congrArg₂ _ ?_ ?_) hflags
    · simp [sql]
    · simp [tokens, referenceTokens]
  | some r =>
    refine Eq.mp (congrArg₂ _ ?_ ?_)
      (hflags.append r.spells (.word ⟨' ', by decide, by decide⟩))
    · simp [sql]
    · simp [tokens, referenceTokens]

lemma Ddl.spells {d : Ddl} (h : d.Makes) : d.sql.Spells d.tokens := by
  have hclosing := Spells.nil.word (w := ")") [.mark ')'] (by decide)
  have hled : Leads [.word ")"] := .word ⟨')', by decide, by decide⟩
  cases d with
  | createTable t =>
    have hcolumns : List.Forall₂ Spells (t.columns.map (·.sql)) (t.columns.map (·.tokens)) := by
      refine List.forall₂_map_left_iff.mpr (List.forall₂_map_right_iff.mpr ?_)
      exact List.forall₂_same.mpr fun c hc => Column.spells (h c hc)
    exact ((((Spells.commas hcolumns).append hclosing hled).word (w := " (") [.mark '(']
      (by decide)).name (n := t.name) (.word ⟨' ', by decide, by decide⟩)).word
        (w := "CREATE TABLE ") [.keyword "CREATE", .keyword "TABLE"] (by decide)
  | addColumn table c =>
    exact (((Column.spells h).word (w := " ADD COLUMN ") [.keyword "ADD", .keyword "COLUMN"]
      (by decide)).name (n := table) (.word ⟨' ', by decide, by decide⟩)).word
        (w := "ALTER TABLE ") [.keyword "ALTER", .keyword "TABLE"] (by decide)
  | createIndex i =>
    have hname : ∀ c : String, Spells [.name c] [.name c.toList] := fun c => Spells.nil.name .nil
    have hcolumns := (Spells.commas_map hname i.columns).append hclosing hled
    have htable := ((hcolumns.word (w := " (") [.mark '('] (by decide)).name (n := i.table)
      (.word ⟨' ', by decide, by decide⟩)).word (w := " ON ") [.keyword "ON"] (by decide)
    have hindex := htable.name (n := i.name) (.word ⟨' ', by decide, by decide⟩)
    rw [sql, tokens]
    cases i.unique with
    | false =>
      exact hindex.word [.keyword "CREATE", .keyword "INDEX", .keyword "IF", .keyword "NOT",
        .keyword "EXISTS"] (by decide)
    | true =>
      exact hindex.word [.keyword "CREATE", .keyword "UNIQUE", .keyword "INDEX", .keyword "IF",
        .keyword "NOT", .keyword "EXISTS"] (by decide)
  | dropIndex i => exact h.elim

end Spelled

section Told

lemma opens_flag {stops : List Token} {w : String} (hw : .keyword w ∈ stops) (flag : Bool)
    (words : List String) : Opens stops (flagTokens flag (w :: words)) := by
  cases flag with
  | false => exact .nil
  | true => exact .cons hw _

lemma opens_reference {stops : List Token} (h : .keyword "REFERENCES" ∈ stops)
    (r : Option ForeignKey) : Opens stops (referenceTokens r) := by
  cases r with
  | none => exact .nil
  | some r => exact .cons h _

lemma flag_eq_of_append {stops xs ys : List Token} {w : String} {words : List String}
    {flag flag' : Bool} (hw : .keyword w ∉ stops) (hx : Opens stops xs) (hy : Opens stops ys)
    (h : flagTokens flag (w :: words) ++ xs = flagTokens flag' (w :: words) ++ ys) :
    flag = flag' ∧ xs = ys := by
  have hapart {xs ys : List Token} (hx : Opens stops xs)
      (h : xs = flagTokens true (w :: words) ++ ys) : False := by
    refine hw (hx (.keyword w) ?_)
    rw [h]
    rfl
  cases flag with
  | false =>
    cases flag' with
    | false => exact ⟨rfl, h⟩
    | true => exact (hapart hx h).elim
  | true =>
    cases flag' with
    | false => exact (hapart hy h.symm).elim
    | true => exact ⟨rfl, List.append_cancel_left h⟩

lemma referenceTokens_injective : Function.Injective referenceTokens := by
  intro r r' h
  match r, r' with
  | none, none => rfl
  | none, some _ => cases h
  | some _, none => cases h
  | some ⟨table, column⟩, some ⟨table', column'⟩ =>
    have hnames : table = table' ∧ column = column' := by
      simpa [referenceTokens, String.toList_inj] using h
    rw [hnames.1, hnames.2]

lemma Kind.eq_of_keyword {k k' : Kind} (h : Token.keyword k.name = .keyword k'.name) : k = k' := by
  cases k <;> cases k' <;> first | rfl | exact absurd h (by decide)

lemma Column.eq_of_tokens {c d : Column} (hc : c.fallback = none) (hd : d.fallback = none)
    (h : c.tokens = d.tokens) : c = d := by
  obtain ⟨hname, hrest⟩ := List.cons.inj h
  obtain ⟨hkind, hflags⟩ := List.cons.inj hrest
  let references : List Token := [.keyword "REFERENCES"]
  let notNull : List Token := .keyword "NOT" :: references
  let unique : List Token := .keyword "UNIQUE" :: notNull
  have hreferences (stops : List Token) (hstops : .keyword "REFERENCES" ∈ stops) (c : Column) :
      Opens stops (referenceTokens c.references) := opens_reference hstops _
  have hnotNull (stops : List Token) (hstops : notNull ⊆ stops) (c : Column) :
      Opens stops (flagTokens c.notNull ["NOT", "NULL"] ++ referenceTokens c.references) :=
    (opens_flag (hstops (by decide)) _ _).append (hreferences stops (hstops (by decide)) c)
  have hunique (c : Column) : Opens unique (flagTokens c.unique ["UNIQUE"] ++
      (flagTokens c.notNull ["NOT", "NULL"] ++ referenceTokens c.references)) :=
    (opens_flag (by decide) _ _).append (hnotNull unique (by decide) c)
  -- no flag starts with a word that may follow it, so they are told one by one
  obtain ⟨hprimaryKey, hflags⟩ := flag_eq_of_append (by decide) (hunique c) (hunique d) hflags
  obtain ⟨hunique, hflags⟩ := flag_eq_of_append (by decide) (hnotNull notNull (by decide) c)
    (hnotNull notNull (by decide) d) hflags
  obtain ⟨hnotNull, hreference⟩ := flag_eq_of_append (by decide)
    (hreferences references (by decide) c) (hreferences references (by decide) d) hflags
  obtain ⟨name, kind, _, _, _, _, fallback⟩ := c
  obtain ⟨name', kind', _, _, _, _, fallback'⟩ := d
  obtain rfl : name = name' := String.toList_inj.mp (Token.name.inj hname)
  obtain rfl : kind = kind' := Kind.eq_of_keyword hkind
  obtain rfl : fallback = none := hc
  obtain rfl : fallback' = none := hd
  simp only at hprimaryKey hunique hnotNull hreference
  rw [hprimaryKey, hunique, hnotNull, referenceTokens_injective hreference]

lemma Column.tokens_apart {c : Column} (h : c.fallback = none) :
    c.tokens ≠ [] ∧ Token.mark ',' ∉ c.tokens := by
  obtain ⟨_, _, notNull, primaryKey, references, unique, _⟩ := c
  refine ⟨List.cons_ne_nil _ _, ?_⟩
  cases notNull <;> cases primaryKey <;> cases unique <;> cases references <;>
    simp [tokens, flagTokens, referenceTokens, Token.keyword]

lemma Ddl.createTable_eq_of_tokens {t u : Table} (ht : (createTable t).Makes)
    (hu : (createTable u).Makes) (h : (createTable t).tokens = (createTable u).tokens) :
    t = u := by
  simp only [tokens, List.cons.injEq, true_and, Token.name.injEq, String.toList_inj] at h
  obtain ⟨hname, hcolumns⟩ := h
  have hmap := map_eq_of_commaTokens (g := id) (fun c hc => Column.tokens_apart (ht c hc))
    (fun c hc => Column.tokens_apart (hu c hc)) (List.append_cancel_right hcolumns)
    fun c hc d hd => Column.eq_of_tokens (ht c hc) (hu d hd)
  rw [List.map_id, List.map_id] at hmap
  obtain ⟨name, columns⟩ := t
  obtain ⟨name', columns'⟩ := u
  simp only at hname hmap
  rw [hname, hmap]

lemma Ddl.createIndex_eq_of_tokens {i j : Index}
    (h : (createIndex i).tokens = (createIndex j).tokens) : i = j := by
  obtain ⟨-, hrest⟩ := List.cons.inj h
  rw [List.append_assoc, List.append_assoc] at hrest
  have hopens (i : Index) (ts : List Token) : Opens [.keyword "INDEX"]
      ([.keyword "INDEX", .keyword "IF", .keyword "NOT", .keyword "EXISTS", .name i.name.toList,
        .keyword "ON", .name i.table.toList, .mark '('] ++ ts) := .cons List.mem_cons_self _
  obtain ⟨hunique, hrest⟩ := flag_eq_of_append (by decide) (hopens i _) (hopens j _) hrest
  simp only [List.cons_append, List.cons.injEq, true_and, List.nil_append, Token.name.injEq,
    String.toList_inj] at hrest
  obtain ⟨hname, htable, hcolumns⟩ := hrest
  have happart (cs : List String) : ∀ c ∈ cs,
      [Token.name c.toList] ≠ [] ∧ Token.mark ',' ∉ [Token.name c.toList] :=
    fun c _ => ⟨List.cons_ne_nil _ _, by simp⟩
  have hmap := map_eq_of_commaTokens (g := id) (happart i.columns) (happart j.columns)
    (List.append_cancel_right hcolumns) fun c _ d _ hcd => by simpa [String.toList_inj] using hcd
  rw [List.map_id, List.map_id] at hmap
  obtain ⟨name, table, columns, unique⟩ := i
  obtain ⟨name', table', columns', unique'⟩ := j
  simp only at hname htable hmap hunique
  rw [hname, htable, hmap, hunique]

lemma Ddl.eq_of_tokens {d e : Ddl} (hd : d.Makes) (he : e.Makes) (h : d.tokens = e.tokens) :
    d = e := by
  have hindex (i : Index) : (createIndex i).tokens[1]? ≠ some (.keyword "TABLE") := by
    cases hunique : i.unique <;> simp [tokens, flagTokens, hunique, Token.keyword]
  cases d with
  | createTable t =>
    cases e with
    | createTable u => exact congrArg createTable (createTable_eq_of_tokens hd he h)
    | addColumn table c => exact absurd (List.cons.inj h).1 (by decide)
    | createIndex j => exact absurd (h ▸ rfl) (hindex j)
    | dropIndex j => exact he.elim
  | addColumn table c =>
    cases e with
    | createTable u => exact absurd (List.cons.inj h).1 (by decide)
    | addColumn table' c' =>
      simp only [tokens, List.cons.injEq, true_and, Token.name.injEq, String.toList_inj] at h
      obtain ⟨rfl, hcolumn⟩ := h
      rw [Column.eq_of_tokens hd he hcolumn]
    | createIndex j => exact absurd (List.cons.inj h).1 (by decide)
    | dropIndex j => exact he.elim
  | createIndex i =>
    cases e with
    | createTable u => exact absurd (h ▸ rfl) (hindex i)
    | addColumn table c => exact absurd (List.cons.inj h).1 (by decide)
    | createIndex j => exact congrArg createIndex (createIndex_eq_of_tokens h)
    | dropIndex j => exact he.elim
  | dropIndex i => exact hd.elim

end Told

/-- Whatever the names are, two such statements have one text only if they are the same. -/
theorem Ddl.compile_sql_eq_iff {d e : Ddl} (hd : d.Makes) (he : e.Makes) :
    ∃ c c', (Statement.ddl d).compile = .ok c ∧ (Statement.ddl e).compile = .ok c' ∧
      (c.sql = c'.sql ↔ d = e) := by
  refine ⟨_, _, rfl, rfl, fun h => ?_, fun h => h ▸ rfl⟩
  have htexts : d.sql.text.toList = e.sql.text.toList := congrArg String.toList h
  apply eq_of_tokens hd he
  rw [← (spells hd).tokensFrom_eq, ← (spells he).tokensFrom_eq, htexts]

namespace Forgery

def named : Ddl := .createTable ⟨"t", [{ name := "a\" TEXT UNIQUE, \"b", kind := .text }]⟩

def meant : Ddl :=
  .createTable ⟨"t", [{ name := "a", kind := .text, unique := true },
    { name := "b", kind := .text }]⟩

end Forgery

open Forgery in
theorem Ddl.compile_sql_eq_iff_forgery : named.Makes ∧ meant.Makes ∧
    ∃ c c', (Statement.ddl named).compile = .ok c ∧ (Statement.ddl meant).compile = .ok c' ∧
      c.sql ≠ c'.sql := by
  have hnamed : named.Makes := List.forall_mem_singleton.mpr rfl
  have hmeant : meant.Makes := List.forall_mem_cons.mpr ⟨rfl, List.forall_mem_singleton.mpr rfl⟩
  obtain ⟨c, c', hc, hc', heq⟩ := Ddl.compile_sql_eq_iff hnamed hmeant
  exact ⟨hnamed, hmeant, c, c', hc, hc', fun h => absurd (heq.mp h) (by decide)⟩

end Tablewright
