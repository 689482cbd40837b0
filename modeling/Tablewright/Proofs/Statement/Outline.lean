import Tablewright.Proofs.Statement.Decoding

/-! The text of a statement tells its outline: all of it but the values and names of placeholders.
So a statement that was prepared for a text serves every statement with that text. -/

namespace Tablewright

def Join.outline (j : Join) : Join := { j with on := j.on.outline }

def Assignment.outline (a : Assignment) : Assignment := (a.1, a.2.outline)

namespace Select

def outline (s : Select) : Select :=
  { s with
    items := s.resultItems
    joins := s.joins.map (·.outline)
    filter := s.filter.map (·.outline)
    limit := s.limit.map fun _ => 0 }

end Select

def Insert.outline (s : Insert) : Insert :=
  { s with assignments := s.assignments.map (·.outline) }

def Update.outline (s : Update) : Update :=
  { s with
    assignments := s.assignments.map (·.outline)
    filter := s.filter.map (·.outline) }

def Delete.outline (s : Delete) : Delete := { s with filter := s.filter.map (·.outline) }

namespace Statement

/-- A statement without what its placeholders stand for, with its select list as it is expanded and
its literals known by their texts. -/
def outline : Statement → Statement
  | select s => select s.outline
  | insert s => insert s.outline
  | update s => update s.outline
  | delete s => delete s.outline
  | ddl d => ddl d

end Statement

section Names

variable {schema : Schema}

lemma SelectItem.separable (i : SelectItem) : i.tokens ≠ [] ∧ .mark ',' ∉ i.tokens := by
  rcases i with c | ⟨_ | c, label⟩ <;>
    simp [tokens, tokens.targetTokens, TableColumn.tokens, Token.keyword]

def Token.inItem : Token → Bool
  | word w => ["COUNT", "AS", "ASC", "DESC"].any fun k => w = k.toList
  | name _ | mark _ => true
  | _ => false

lemma disjoint_of_kind {kind : Token → Bool} {ts stops : List Token}
    (h : ∀ t ∈ ts, kind t = true) (hstops : ∀ u ∈ stops, kind u = false) : ts.Disjoint stops := by
  intro t ht hmem
  have hkind := h t ht
  rw [hstops t hmem] at hkind
  cases hkind

lemma SelectItem.inItem_tokens (i : SelectItem) : ∀ t ∈ i.tokens, t.inItem = true := by
  rcases i with c | ⟨_ | c, label⟩ <;>
    simp [tokens, tokens.targetTokens, TableColumn.tokens, Token.keyword, Token.inItem]

lemma SortKey.separable (k : SortKey) : k.tokens ≠ [] ∧ .mark ',' ∉ k.tokens := by
  rcases k with ⟨c, _ | _⟩ <;> simp [tokens, TableColumn.tokens, Token.keyword]

lemma SortKey.inItem_tokens (k : SortKey) : ∀ t ∈ k.tokens, t.inItem = true := by
  rcases k with ⟨c, _ | _⟩ <;> simp [tokens, TableColumn.tokens, Token.keyword, Token.inItem]

lemma disjoint_commaTokens {stops : List Token} {tss : List (List Token)}
    (hcomma : Token.mark ',' ∉ stops) (h : ∀ ts ∈ tss, ts.Disjoint stops) :
    (commaTokens tss).Disjoint stops := by
  induction tss with
  | nil => exact List.disjoint_nil_left stops
  | cons ts tss ih =>
    rw [List.forall_mem_cons] at h
    cases tss with
    | nil =>
      rw [commaTokens_singleton]
      exact h.1
    | cons us tss =>
      rw [commaTokens_cons_cons, List.disjoint_append_left, List.disjoint_cons_left]
      exact ⟨h.1, hcomma, ih h.2⟩

lemma TableColumn.eq_of_tokens (h : schema.Distinct) {c d : TableColumn} (hc : schema.Declares c)
    (hd : schema.Declares d) (heq : c.tokens = d.tokens) : c = d := by
  simp only [tokens, List.cons.injEq, Token.name.injEq, true_and, and_true] at heq
  exact h.column_of_names hc hd heq.1 heq.2

lemma SelectItem.eq_of_tokens (h : schema.Distinct) {i j : SelectItem}
    (hi : ∀ c ∈ i.column?, schema.Declares c) (hj : ∀ c ∈ j.column?, schema.Declares c)
    (heq : i.tokens = j.tokens) : i = j := by
  cases i with
  | column c =>
    cases j with
    | column d => rw [TableColumn.eq_of_tokens h (hi c rfl) (hj d rfl) heq]
    | count d => simp [tokens, TableColumn.tokens, Token.keyword] at heq
  | count c =>
    cases j with
    | column d => simp [tokens, TableColumn.tokens, Token.keyword] at heq
    | count d =>
      obtain ⟨column, label⟩ := c
      obtain ⟨column', label'⟩ := d
      cases column with
      | none =>
        cases column' with
        | none => simpa [tokens, tokens.targetTokens, String.toList_inj] using heq
        | some d => simp [tokens, tokens.targetTokens, TableColumn.tokens] at heq
      | some c =>
        cases column' with
        | none => simp [tokens, tokens.targetTokens, TableColumn.tokens] at heq
        | some d =>
          have hparts : c.tokens = d.tokens ∧ label = label' := by
            simpa [tokens, tokens.targetTokens, TableColumn.tokens, String.toList_inj, and_assoc]
              using heq
          rw [TableColumn.eq_of_tokens h (hi c rfl) (hj d rfl) hparts.1, hparts.2]

lemma SortKey.eq_of_tokens (h : schema.Distinct) {k k' : SortKey} (hk : schema.Declares k.column)
    (hk' : schema.Declares k'.column) (heq : k.tokens = k'.tokens) : k = k' := by
  obtain ⟨c, descending⟩ := k
  obtain ⟨d, descending'⟩ := k'
  obtain ⟨hcolumn, hword⟩ := List.append_inj heq rfl
  obtain rfl : c = d := TableColumn.eq_of_tokens h hk hk' hcolumn
  have hdescending : descending = descending' := by
    cases descending <;> cases descending' <;> simp [Token.keyword] at hword ⊢
  rw [hdescending]

lemma declares_resultItems {s : Select} (hs : s.Neat schema) :
    ∀ i ∈ s.resultItems, ∀ c ∈ i.column?, schema.Declares c := by
  intro i hi c hc
  rw [Select.resultItems] at hi
  split at hi
  · obtain ⟨t, ht, hi⟩ := List.mem_flatMap.mp hi
    obtain ⟨d, hd, rfl⟩ := List.mem_map.mp hi
    obtain rfl := Option.some.inj hc
    exact ⟨t, hs.tables t ht, hd⟩
  · exact hs.items i hi c hc

lemma items_eq_of_tokens (h : schema.Distinct) {is js : List SelectItem}
    (hi : ∀ i ∈ is, ∀ c ∈ i.column?, schema.Declares c)
    (hj : ∀ j ∈ js, ∀ c ∈ j.column?, schema.Declares c)
    (heq : commaTokens (is.map (·.tokens)) = commaTokens (js.map (·.tokens))) : is = js := by
  have hmap : is.map id = js.map id :=
    map_eq_of_commaTokens (fun i _ => i.separable) (fun j _ => j.separable) heq
      fun i hi' j hj' => SelectItem.eq_of_tokens h (hi i hi') (hj j hj')
  rwa [List.map_id, List.map_id] at hmap

lemma sorting_eq_of_tokens (h : schema.Distinct) {ks ks' : List SortKey}
    (hk : ∀ k ∈ ks, schema.Declares k.column) (hk' : ∀ k ∈ ks', schema.Declares k.column)
    (heq : sortingTokens ks = sortingTokens ks') : ks = ks' := by
  cases ks with
  | nil =>
    cases ks' with
    | nil => rfl
    | cons k ks' => cases heq
  | cons k ks =>
    cases ks' with
    | nil => cases heq
    | cons k' ks' =>
      have hcommas := (List.cons.inj (List.cons.inj heq).2).2
      have hmap : (k :: ks).map id = (k' :: ks').map id :=
        map_eq_of_commaTokens (fun k _ => k.separable) (fun k _ => k.separable) hcommas
          fun a ha b hb => SortKey.eq_of_tokens h (hk a ha) (hk' b hb)
      rwa [List.map_id, List.map_id] at hmap

lemma disjoint_itemTokens (is : List SelectItem) {stops : List Token}
    (hstops : ∀ u ∈ stops, u.inItem = false) :
    (commaTokens (is.map (·.tokens))).Disjoint stops :=
  disjoint_commaTokens (fun hcomma => nomatch hstops _ hcomma)
    (List.forall_mem_map.mpr fun i _ => disjoint_of_kind i.inItem_tokens hstops)

lemma disjoint_sortingTokens (ks : List SortKey) {stops : List Token}
    (hstops : ∀ u ∈ stops, u.inItem = false) (horder : .keyword "ORDER" ∉ stops)
    (hby : .keyword "BY" ∉ stops) : (sortingTokens ks).Disjoint stops := by
  cases ks with
  | nil => exact List.disjoint_nil_left stops
  | cons k ks =>
    have hkeys : ∀ ts ∈ (k :: ks).map (·.tokens), ts.Disjoint stops :=
      List.forall_mem_map.mpr fun k _ => disjoint_of_kind k.inItem_tokens hstops
    rw [sortingTokens, List.disjoint_cons_left, List.disjoint_cons_left]
    · exact ⟨horder, hby, disjoint_commaTokens (fun hcomma => nomatch hstops _ hcomma) hkeys⟩
    · exact List.cons_ne_nil k ks

lemma limit_eq_of_tokens {m n : Option Nat} (heq : limitTokens m = limitTokens n) :
    m.map (fun _ => 0) = n.map fun _ => 0 := by
  cases m with
  | none =>
    cases n with
    | none => rfl
    | some n => cases heq
  | some m =>
    cases n with
    | none => cases heq
    | some n => rfl

lemma returning_eq_of_tokens {b c : Bool} (heq : returningTokens b = returningTokens c) : b = c := by
  cases b with
  | false =>
    cases c with
    | false => rfl
    | true => cases heq
  | true =>
    cases c with
    | false => cases heq
    | true => rfl

lemma filter_outline_of_tokens (h : schema.Distinct) {f g : Option Predicate} {s t : Sql}
    (hf : ∀ p ∈ f, p.Neat schema) (hg : ∀ p ∈ g, p.Neat schema) (hs : filterSql f = .ok s)
    (ht : filterSql g = .ok t) (heq : filterTokens f = filterTokens g) :
    f.map (·.outline) = g.map (·.outline) := by
  obtain ⟨rfl, -⟩ | ⟨p, _, rfl, hp, -⟩ := filterSql_eq_ok hs
  · obtain ⟨rfl, -⟩ | ⟨q, _, rfl, -, -⟩ := filterSql_eq_ok ht
    · rfl
    · cases heq
  · obtain ⟨rfl, -⟩ | ⟨q, _, rfl, hq, -⟩ := filterSql_eq_ok ht
    · cases heq
    · have htokens := (List.cons.inj heq).2
      exact congrArg some
        (Predicate.Neat.outline_of_tokens h (hf p rfl) (hg q rfl) hp hq htokens)

lemma Predicate.disjoint_stops (p : Predicate) (within : Option Connective) {stops : List Token}
    (hstops : ∀ u ∈ stops, u.inCondition = false) : (p.tokens within).Disjoint stops :=
  disjoint_of_kind (p.inCondition_tokens within) hstops

lemma disjoint_filterTokens (f : Option Predicate) {stops : List Token}
    (hstops : ∀ u ∈ stops, u.inCondition = false) (hwhere : .keyword "WHERE" ∉ stops) :
    (filterTokens f).Disjoint stops := by
  cases f with
  | none => exact List.disjoint_nil_left stops
  | some p =>
    rw [filterTokens, List.disjoint_cons_left]
    exact ⟨hwhere, p.disjoint_stops none hstops⟩

lemma opens_joinsTokens (js : List Join) : Opens [.keyword "INNER"] (joinsTokens js) := by
  cases js with
  | nil => exact .nil
  | cons j js => exact .cons List.mem_cons_self _

lemma opens_filterTokens {stops : List Token} (h : .keyword "WHERE" ∈ stops) (f : Option Predicate) :
    Opens stops (filterTokens f) := by
  cases f with
  | none => exact .nil
  | some p => exact .cons h _

lemma opens_sortingTokens {stops : List Token} (h : .keyword "ORDER" ∈ stops) (ks : List SortKey) :
    Opens stops (sortingTokens ks) := by
  cases ks with
  | nil => exact .nil
  | cons k ks => exact .cons h _

lemma opens_limitTokens {stops : List Token} (h : .keyword "LIMIT" ∈ stops) (n : Option Nat) :
    Opens stops (limitTokens n) := by
  cases n with
  | none => exact .nil
  | some n => exact .cons h _

lemma opens_returningTokens {stops : List Token} (h : .keyword "RETURNING" ∈ stops)
    (returning : Bool) : Opens stops (returningTokens returning) := by
  cases returning with
  | false => exact .nil
  | true => exact .cons h _

lemma closing_of_tokens (h : schema.Distinct) {f g : Option Predicate} {b c : Bool} {s t : Sql}
    (hf : ∀ p ∈ f, p.Neat schema) (hg : ∀ p ∈ g, p.Neat schema) (hs : filterSql f = .ok s)
    (ht : filterSql g = .ok t)
    (heq : filterTokens f ++ returningTokens b = filterTokens g ++ returningTokens c) :
    f.map (·.outline) = g.map (·.outline) ∧ b = c := by
  have hopens : ∀ b, Opens [.keyword "RETURNING"] (returningTokens b) :=
    opens_returningTokens List.mem_cons_self
  obtain ⟨hfiltered, hreturning⟩ := append_eq_of_stops
    (disjoint_filterTokens f (by decide) (by decide))
    (disjoint_filterTokens g (by decide) (by decide)) (hopens b) (hopens c) heq
  exact ⟨filter_outline_of_tokens h hf hg hs ht hfiltered, returning_eq_of_tokens hreturning⟩

lemma disjoint_joinsTokens (js : List Join) :
    (joinsTokens js).Disjoint [.keyword "WHERE", .keyword "ORDER", .keyword "LIMIT"] := by
  induction js with
  | nil => exact List.disjoint_nil_left _
  | cons j js ih =>
    rw [joinsTokens, List.disjoint_append_left, List.disjoint_append_left]
    refine ⟨⟨?_, j.on.disjoint_stops none (by decide)⟩, ih⟩
    simp [Token.keyword]

lemma joins_outline_of_tokens (h : schema.Distinct) {js ks : List Join} {s t : Sql}
    (hj : ∀ j ∈ js, j.table ∈ schema.tables.values ∧ j.on.Neat schema)
    (hk : ∀ k ∈ ks, k.table ∈ schema.tables.values ∧ k.on.Neat schema)
    (hs : joinsSql js = .ok s) (ht : joinsSql ks = .ok t)
    (heq : joinsTokens js = joinsTokens ks) : js.map (·.outline) = ks.map (·.outline) := by
  induction js generalizing ks s t with
  | nil =>
    cases ks with
    | nil => rfl
    | cons k ks => cases heq
  | cons j js ih =>
    cases ks with
    | nil => cases heq
    | cons k ks =>
      rw [List.forall_mem_cons] at hj hk
      obtain ⟨on, others, hon, hothers, -⟩ := joinsSql_cons_eq_ok hs
      obtain ⟨on', others', hon', hothers', -⟩ := joinsSql_cons_eq_ok ht
      simp only [joinsTokens, List.cons_append, List.nil_append, List.cons.injEq,
        Token.name.injEq, true_and] at heq
      obtain ⟨hcondition, hrest⟩ := append_eq_of_stops (j.on.disjoint_stops none (by decide))
        (k.on.disjoint_stops none (by decide)) (opens_joinsTokens js) (opens_joinsTokens ks) heq.2
      have htable := h.table_of_name hj.1.1 hk.1.1 heq.1
      have honEq := Predicate.Neat.outline_of_tokens h hj.1.2 hk.1.2 hon hon' hcondition
      rw [List.map_cons, List.map_cons, Join.outline, Join.outline, htable, honEq,
        ih hj.2 hk.2 hothers hothers' hrest]

lemma Side.Legible.ne_nil {s : Side} (h : s.Legible) : s.tokens ≠ [] := by
  intro hnil
  have hside := h.side
  rw [hnil] at hside
  cases hside

lemma Supply.legible {v : Supply} (h : ∃ s, v.sql = .ok s) : v.side.Legible := by
  obtain ⟨s, hs⟩ := h
  exact (Operand.reads_side (o := .supply v) hs).2

lemma Supply.disjoint_stops (v : Supply) {stops : List Token}
    (hstops : ∀ u ∈ stops, u.inOperand = false) : v.side.tokens.Disjoint stops :=
  disjoint_of_kind (Operand.supply v).inOperand_side hstops

lemma Supply.separable {v : Supply} (h : ∃ s, v.sql = .ok s) :
    v.side.tokens ≠ [] ∧ Token.mark ',' ∉ v.side.tokens :=
  ⟨(legible h).ne_nil, fun hcomma =>
    (v.disjoint_stops (by decide) : v.side.tokens.Disjoint [.mark ',']) hcomma List.mem_cons_self⟩

def Token.inSetting (t : Token) : Bool := t.inOperand || t == .relation ['='] || t == .mark ','

lemma disjoint_setTokens (assignments : List Assignment) {stops : List Token}
    (hstops : ∀ u ∈ stops, u.inSetting = false) :
    (commaTokens (assignments.map fun a =>
      .name a.1.name.toList :: .relation ['='] :: a.2.side.tokens)).Disjoint stops := by
  refine disjoint_commaTokens (fun hcomma => nomatch hstops _ hcomma)
    (List.forall_mem_map.mpr fun a _ => disjoint_of_kind (fun t ht => ?_) hstops)
  rcases List.mem_cons.mp ht with rfl | ht
  · rfl
  · rcases List.mem_cons.mp ht with rfl | ht
    · rfl
    · rw [Token.inSetting, (Operand.supply a.2).inOperand_side t ht]
      rfl

lemma Supply.outline_of_tokens {u v : Supply} (hu : ∃ s, u.sql = .ok s) (hv : ∃ s, v.sql = .ok s)
    (heq : u.side.tokens = v.side.tokens) : u.outline = v.outline := by
  have hside : side? u.side.tokens = some v.side := heq ▸ (legible hv).side
  exact Supply.outline_of_side (Option.some.inj ((legible hu).side.symm.trans hside))

lemma exists_sql_of_assignments {assignments : List Assignment} {parts : List Sql}
    (h : suppliesSql (assignments.map (·.2)) = .ok parts) :
    ∀ a ∈ assignments, ∃ s, a.2.sql = .ok s := by
  induction assignments generalizing parts with
  | nil => exact List.forall_mem_nil _
  | cons a assignments ih =>
    obtain ⟨here, others, hhere, hothers, -⟩ := suppliesSql_cons_eq_ok h
    exact List.forall_mem_cons.mpr ⟨⟨here, hhere⟩, ih hothers⟩

lemma Assignment.outline_of_tokens (h : schema.Distinct) {t : Table}
    (ht : t ∈ schema.tables.values) {a b : Assignment} (ha : a.1 ∈ t.allColumns)
    (hb : b.1 ∈ t.allColumns) (has : ∃ s, a.2.sql = .ok s) (hbs : ∃ s, b.2.sql = .ok s)
    (hname : a.1.name.toList = b.1.name.toList) (hside : a.2.side.tokens = b.2.side.tokens) :
    a.outline = b.outline := by
  have htable : a.1.table = b.1.table := by
    rw [Table.table_of_mem ha, Table.table_of_mem hb]
  have hcolumn := h.column_of_names ⟨t, ht, ha⟩ ⟨t, ht, hb⟩ (congrArg String.toList htable) hname
  have hsupply := Supply.outline_of_tokens has hbs hside
  rw [outline, outline, hcolumn, hsupply]

lemma Select.Neat.source {s : Select} (hs : s.Neat schema) {t : Table} (ht : s.source = some t) :
    t ∈ schema.tables.values :=
  hs.tables t (List.mem_append_left _ (by rw [ht]; exact List.mem_singleton_self t))

lemma Select.Neat.joined {s : Select} (hs : s.Neat schema) :
    ∀ j ∈ s.joins, j.table ∈ schema.tables.values ∧ j.on.Neat schema := fun j hj =>
  ⟨hs.tables _ (List.mem_append_right _ (List.mem_map_of_mem hj)), hs.joins j hj⟩

lemma Select.clauses_of_tokens {s t : Select} {u v : Table} (hs : s.source = some u)
    (ht : t.source = some v) (heq : s.tokens = t.tokens) :
    commaTokens (s.resultItems.map (·.tokens)) = commaTokens (t.resultItems.map (·.tokens)) ∧
      u.name.toList = v.name.toList ∧ joinsTokens s.joins = joinsTokens t.joins ∧
      filterTokens s.filter = filterTokens t.filter ∧
      sortingTokens s.sorting = sortingTokens t.sorting ∧
      limitTokens s.limit = limitTokens t.limit := by
  have hkeys : ∀ s : Select,
      Opens [.keyword "ORDER", .keyword "LIMIT"] (sortingTokens s.sorting ++ limitTokens s.limit) :=
    fun s => (opens_sortingTokens (by simp) _).append (opens_limitTokens (by simp) _)
  have hclauses : ∀ s : Select, Opens [.keyword "WHERE", .keyword "ORDER", .keyword "LIMIT"]
      (filterTokens s.filter ++ (sortingTokens s.sorting ++ limitTokens s.limit)) :=
    fun s => (opens_filterTokens (by simp) _).append
      ((opens_sortingTokens (by simp) _).append (opens_limitTokens (by simp) _))
  have hlist : ∀ s : Select,
      (commaTokens (s.resultItems.map (·.tokens))).Disjoint [.keyword "FROM"] := fun s =>
    disjoint_itemTokens s.resultItems (by decide)
  have hordered : ∀ s : Select, (sortingTokens s.sorting).Disjoint [.keyword "LIMIT"] := fun s =>
    disjoint_sortingTokens s.sorting (by decide) (by decide) (by decide)
  -- each clause is cut off where the keyword of one that may follow it stands
  rw [tokens, tokens, hs, ht] at heq
  obtain ⟨hitems, heq⟩ := append_eq_of_stops (hlist s) (hlist t)
    (.cons List.mem_cons_self _) (.cons List.mem_cons_self _) (List.cons.inj heq).2
  obtain ⟨hname, heq⟩ := List.cons.inj (List.cons.inj heq).2
  obtain ⟨hjoined, heq⟩ := append_eq_of_stops (disjoint_joinsTokens s.joins)
    (disjoint_joinsTokens t.joins) (hclauses s) (hclauses t) heq
  obtain ⟨hfiltered, heq⟩ := append_eq_of_stops
    (disjoint_filterTokens s.filter (by decide) (by decide))
    (disjoint_filterTokens t.filter (by decide) (by decide)) (hkeys s) (hkeys t) heq
  obtain ⟨hsorted, hlimited⟩ := append_eq_of_stops (hordered s) (hordered t)
    (opens_limitTokens (by simp) _) (opens_limitTokens (by simp) _) heq
  exact ⟨hitems, Token.name.inj hname, hjoined, hfiltered, hsorted, hlimited⟩

lemma Select.outline_of_tokens (h : schema.Distinct) {s t : Select} (hs : s.Neat schema)
    (ht : t.Neat schema) {a b : Sql} (ha : s.sql = .ok a) (hb : t.sql = .ok b)
    (heq : s.tokens = t.tokens) : s.outline = t.outline := by
  obtain ⟨source, _, _, hcheck, hjoins, hfilter, -⟩ := Select.sql_eq_ok ha
  obtain ⟨source', _, _, hcheck', hjoins', hfilter', -⟩ := Select.sql_eq_ok hb
  have hsource := Select.check_eq_ok hcheck
  have hsource' := Select.check_eq_ok hcheck'
  obtain ⟨hitems, hname, hjoined, hfiltered, hsorted, hlimited⟩ :=
    clauses_of_tokens hsource hsource' heq
  have hfrom := h.table_of_name (hs.source hsource) (ht.source hsource') hname
  rw [outline, outline, hsource, hsource', hfrom,
    items_eq_of_tokens h (declares_resultItems hs) (declares_resultItems ht) hitems,
    joins_outline_of_tokens h hs.joined ht.joined hjoins hjoins' hjoined,
    filter_outline_of_tokens h hs.filter ht.filter hfilter hfilter' hfiltered,
    sorting_eq_of_tokens h hs.sorting ht.sorting hsorted, limit_eq_of_tokens hlimited]

lemma Insert.outline_of_tokens (h : schema.Distinct) {s t : Insert} (hs : s.Neat schema)
    (ht : t.Neat schema) {a b : Sql} (ha : s.sql = .ok a) (hb : t.sql = .ok b)
    (heq : s.tokens = t.tokens) : s.outline = t.outline := by
  obtain ⟨_, hvalues, -⟩ := Insert.sql_eq_ok ha
  obtain ⟨_, hvalues', -⟩ := Insert.sql_eq_ok hb
  have hsql := exists_sql_of_assignments hvalues
  have hsql' := exists_sql_of_assignments hvalues'
  have hcolumnsOf : ∀ s : Insert, (commaTokens (s.assignments.map fun a =>
      [Token.name a.1.name.toList])).Disjoint [.mark ')'] := fun s =>
    disjoint_commaTokens (by decide) (List.forall_mem_map.mpr fun a _ => by simp)
  have hsuppliesOf : ∀ s : Insert, (commaTokens (s.assignments.map fun a =>
      a.2.side.tokens)).Disjoint [.mark ')'] := fun s =>
    disjoint_commaTokens (by decide) (List.forall_mem_map.mpr fun a _ =>
      a.2.disjoint_stops (by decide))
  rw [tokens, tokens] at heq
  obtain ⟨hname, heq⟩ := List.cons.inj (List.cons.inj (List.cons.inj heq).2).2
  obtain ⟨hcolumns, heq⟩ := append_eq_of_stops (hcolumnsOf s) (hcolumnsOf t)
    (.cons List.mem_cons_self _) (.cons List.mem_cons_self _) (List.cons.inj heq).2
  obtain ⟨hsupplies, heq⟩ := append_eq_of_stops (hsuppliesOf s) (hsuppliesOf t)
    (.cons List.mem_cons_self _) (.cons List.mem_cons_self _)
    (List.cons.inj (List.cons.inj (List.cons.inj heq).2).2).2
  have htable := h.table_of_name hs.table ht.table (Token.name.inj hname)
  have hcolumnLists := commaTokens_injective (List.forall_mem_map.mpr fun a _ => by simp)
    (List.forall_mem_map.mpr fun a _ => by simp) hcolumns
  have hsupplyLists := commaTokens_injective
    (List.forall_mem_map.mpr fun a ha => Supply.separable (hsql a ha))
    (List.forall_mem_map.mpr fun a ha => Supply.separable (hsql' a ha)) hsupplies
  -- the columns and the values are two lists in the text; an assignment is a pair of the two
  have hpairs := congrArg₂ List.zip hcolumnLists hsupplyLists
  rw [List.zip_map', List.zip_map'] at hpairs
  have hassigned : s.assignments.map (·.outline) = t.assignments.map (·.outline) := by
    refine map_eq_map_of_forall hpairs fun a ha b hb hab => ?_
    obtain ⟨hcolumn, hside⟩ := Prod.mk.inj hab
    exact Assignment.outline_of_tokens h hs.table (hs.assignments a ha)
      (htable ▸ ht.assignments b hb) (hsql a ha) (hsql' b hb) (by simpa using hcolumn) hside
  rw [outline, outline, htable, hassigned, returning_eq_of_tokens (List.cons.inj heq).2]

lemma Update.outline_of_tokens (h : schema.Distinct) {s t : Update} (hs : s.Neat schema)
    (ht : t.Neat schema) {a b : Sql} (ha : s.sql = .ok a) (hb : t.sql = .ok b)
    (heq : s.tokens = t.tokens) : s.outline = t.outline := by
  obtain ⟨_, _, hvalues, hfilter, -⟩ := Update.sql_eq_ok ha
  obtain ⟨_, _, hvalues', hfilter', -⟩ := Update.sql_eq_ok hb
  have hsql := exists_sql_of_assignments hvalues
  have hsql' := exists_sql_of_assignments hvalues'
  have hclauses : ∀ s : Update, Opens [.keyword "WHERE", .keyword "RETURNING"]
      (filterTokens s.filter ++ returningTokens s.returning) := fun s =>
    (opens_filterTokens (by simp) _).append (opens_returningTokens (by simp) _)
  have hsetOf : ∀ {s : Update}, (∀ a ∈ s.assignments, ∃ v, a.2.sql = .ok v) →
      ∀ a ∈ s.assignments, Token.name a.1.name.toList :: .relation ['='] :: a.2.side.tokens ≠ [] ∧
        .mark ',' ∉ Token.name a.1.name.toList :: .relation ['='] :: a.2.side.tokens := by
    intro s hsql a ha
    simpa using (Supply.separable (hsql a ha)).2
  rw [tokens, tokens] at heq
  obtain ⟨hname, heq⟩ := List.cons.inj (List.cons.inj heq).2
  obtain ⟨hsets, heq⟩ := append_eq_of_stops (disjoint_setTokens s.assignments (by decide))
    (disjoint_setTokens t.assignments (by decide)) (hclauses s) (hclauses t) (List.cons.inj heq).2
  obtain ⟨hfiltered, hreturning⟩ :=
    closing_of_tokens h hs.filter ht.filter hfilter hfilter' heq
  have htable := h.table_of_name hs.table ht.table (Token.name.inj hname)
  have hassigned : s.assignments.map (·.outline) = t.assignments.map (·.outline) := by
    refine map_eq_of_commaTokens (hsetOf hsql) (hsetOf hsql') hsets fun a ha b hb hab => ?_
    obtain ⟨hcolumn, hab⟩ := List.cons.inj hab
    exact Assignment.outline_of_tokens h hs.table (hs.assignments a ha)
      (htable ▸ ht.assignments b hb) (hsql a ha) (hsql' b hb) (Token.name.inj hcolumn)
      (List.cons.inj hab).2
  rw [outline, outline, htable, hassigned, hfiltered, hreturning]

lemma Delete.outline_of_tokens (h : schema.Distinct) {s t : Delete} (hs : s.Neat schema)
    (ht : t.Neat schema) {a b : Sql} (ha : s.sql = .ok a) (hb : t.sql = .ok b)
    (heq : s.tokens = t.tokens) : s.outline = t.outline := by
  obtain ⟨_, hfilter, -⟩ := Delete.sql_eq_ok ha
  obtain ⟨_, hfilter', -⟩ := Delete.sql_eq_ok hb
  rw [tokens, tokens] at heq
  obtain ⟨hname, heq⟩ := List.cons.inj (List.cons.inj (List.cons.inj heq).2).2
  obtain ⟨hfiltered, hreturning⟩ :=
    closing_of_tokens h hs.filter ht.filter hfilter hfilter' heq
  have htable := h.table_of_name hs.table ht.table (Token.name.inj hname)
  rw [outline, outline, htable, hfiltered, hreturning]

namespace Statement

lemma Neat.outline_of_tokens (h : schema.Distinct) {s t : Statement} (hs : s.Neat schema)
    (ht : t.Neat schema) {a b : Sql} (ha : s.sql = .ok a) (hb : t.sql = .ok b)
    (heq : s.tokens = t.tokens) : s.outline = t.outline := by
  cases s with
  | select s =>
    cases t with
    | select t => exact congrArg select (Select.outline_of_tokens h hs ht ha hb heq)
    | insert t | update t | delete t => exact absurd (List.cons.inj heq).1 (by decide)
    | ddl d => exact ht.elim
  | insert s =>
    cases t with
    | insert t => exact congrArg insert (Insert.outline_of_tokens h hs ht ha hb heq)
    | select t | update t | delete t => exact absurd (List.cons.inj heq).1 (by decide)
    | ddl d => exact ht.elim
  | update s =>
    cases t with
    | update t => exact congrArg update (Update.outline_of_tokens h hs ht ha hb heq)
    | select t | insert t | delete t => exact absurd (List.cons.inj heq).1 (by decide)
    | ddl d => exact ht.elim
  | delete s =>
    cases t with
    | delete t => exact congrArg delete (Delete.outline_of_tokens h hs ht ha hb heq)
    | select t | insert t | update t => exact absurd (List.cons.inj heq).1 (by decide)
    | ddl d => exact ht.elim
  | ddl d => exact hs.elim

/-- Statements with the same text, built over the same schema, are the same in outline. -/
theorem outline_eq_of_sql {tables : List Table} {indexes : List Index}
    (hschema : Schema.build tables indexes = .ok schema) {s t : Statement}
    (hs : s.Built schema) (ht : t.Built schema) {c d : Compiled} (hc : s.compile = .ok c)
    (hd : t.compile = .ok d) (hsql : c.sql = d.sql) : s.outline = t.outline := by
  have htokens : s.tokens = t.tokens := by
    rw [← tokens_sql hs.neat hc, ← tokens_sql ht.neat hd, hsql]
  obtain ⟨_, hsqlS, -⟩ := map_eq_ok_iff.mp hc
  obtain ⟨_, hsqlT, -⟩ := map_eq_ok_iff.mp hd
  exact hs.neat.outline_of_tokens (Schema.distinct_of_build hschema) ht.neat hsqlS hsqlT htokens

end Statement

end Names

namespace Ledger

def table : Table :=
  ⟨"the \"ledger\"", [{ name := "id", kind := .integer, primaryKey := true },
    { name := "owner, ?", kind := .text }]⟩

def schema : Schema := .ofDescriptions [table] []

def owner : TableColumn := table.column { name := "owner, ?", kind := .text }

def entries (items : List SelectItem) (p : Param) (limit : Nat) : Statement :=
  .select
    { items
      source := some table
      filter := some (.comparison ⟨owner, .eq, .supply (.param p)⟩)
      limit := some limit }

lemma built_entries {terms : List Term} {items : List SelectItem} (hterms : ∀ t ∈ terms, t.Over schema)
    (hitems : selectItems terms = .ok items) (p : Param) (limit : Nat) :
    (entries items p limit).Built schema := by
  have htable : (Term.table table).Over schema := List.mem_cons_self
  have howner : schema.Declares owner :=
    ⟨table, List.mem_cons_self, List.mem_cons_of_mem _ List.mem_cons_self⟩
  have hcompare : Term.compare (.column owner) (.text "=") (.supply (.param p)) =
      .ok (.comparison ⟨owner, .eq, .supply (.param p)⟩) := rfl
  have hvalue : ∀ d, Term.supply (.param p) = .column d → schema.Declares d := nofun
  have hstart : Statement.start (.select terms) = .ok (.select (.start items)) := by
    rw [Statement.start, hitems]
    rfl
  have hopened := Statement.Built.start (o := .select terms) hterms hstart
  have hsource := hopened.step (c := .source (.table table)) htable rfl
  have hfilter := hsource.step (c := .restrict (.predicate _)) (.compare howner hvalue hcompare) rfl
  exact hfilter.step (c := .limit (.value (.int limit))) trivial rfl

end Ledger

open Ledger in
theorem Statement.outline_eq_of_sql_ledger :
    ∃ c d, Schema.build [table] [] = .ok Ledger.schema ∧
      (entries [] { value := some (.text "Ann") } 5).compile = .ok c ∧
      (entries (table.allColumns.map .column) { name := some "who" } 9).compile = .ok d ∧
      c.sql = d.sql ∧
      (entries [] { value := some (.text "Ann") } 5).outline =
        (entries (table.allColumns.map .column) { name := some "who" } 9).outline := by
  have hschema : Schema.build [table] [] = .ok Ledger.schema := rfl
  have hnone : selectItems [] = .ok [] := rfl
  have hall : selectItems [.table table] = .ok (table.allColumns.map .column) := rfl
  have hs := built_entries (List.forall_mem_nil _) hnone { value := some (.text "Ann") } 5
  have ht := built_entries (List.forall_mem_singleton.mpr List.mem_cons_self) hall
    { name := some "who" } 9
  have hcompile : ∃ c d, (entries [] { value := some (.text "Ann") } 5).compile = .ok c ∧
      (entries (table.allColumns.map .column) { name := some "who" } 9).compile = .ok d ∧
      c.sql = d.sql := ⟨_, _, rfl, rfl, rfl⟩
  obtain ⟨c, d, hc, hd, hsql⟩ := hcompile
  exact ⟨c, d, hschema, hc, hd, hsql, outline_eq_of_sql hschema hs ht hc hd hsql⟩

end Tablewright
