import Tablewright.Proofs.Statement.Opened
import Tablewright.Proofs.Statement.Rendering

namespace Tablewright

def Token.keyword (w : String) : Token := .word w.toList

namespace Reading

def run : Reading → List Char → List Token × Reading
  | m, [] => ([], m)
  | m, c :: cs => ((m.next c).1 ++ (run (m.next c).2 cs).1, (run (m.next c).2 cs).2)

end Reading

lemma tokensFrom_append (m : Reading) (cs rest : List Char) :
    tokensFrom m (cs ++ rest) = (m.run cs).1 ++ tokensFrom (m.run cs).2 rest := by
  induction cs generalizing m with
  | nil => rfl
  | cons c cs ih => rw [List.cons_append, tokensFrom, ih, Reading.run, List.append_assoc]

/-- Nothing, or what can stand after any token. -/
def Led (cs : List Char) : Prop := ∀ rest, Ends rest → Ends (cs ++ rest)

lemma led_nil : Led [] := fun _ => id

lemma led_cons {c : Char} (hc : c = ' ' ∨ c = ',' ∨ c = ')') (cs : List Char) : Led (c :: cs) := by
  intro rest _ d hd
  exact Option.some.inj hd ▸ hc

lemma Reads.nil : Reads [] [] := fun _ _ => rfl

lemma Reads.append {cs ds : List Char} {ts us : List Token} (hc : Reads cs ts) (hd : Reads ds us)
    (hled : Led ds) : Reads (cs ++ ds) (ts ++ us) := by
  intro rest hrest
  rw [List.append_assoc, hc _ (hled rest hrest), hd rest hrest, List.append_assoc]

namespace Sql

variable {s t : Sql} {ts us : List Token}

abbrev Spells (s : Sql) (ts : List Token) : Prop := Tablewright.Reads s.text.toList ts

abbrev Leads (s : Sql) : Prop := Tablewright.Led s.text.toList

namespace Leads

lemma nil : Leads [] := led_nil

lemma word {w : String} (hw : ∃ c ∈ w.toList.head?, c = ' ' ∨ c = ',' ∨ c = ')') :
    Leads (.word w :: s) := by
  obtain ⟨c, hc, hends⟩ := hw
  obtain ⟨cs, hcs⟩ := List.head?_eq_some_iff.mp hc
  rw [Leads, toList_text_cons, Piece.text, hcs]
  exact led_cons hends _

end Leads

namespace Spells

lemma nil : Spells [] [] := Tablewright.Reads.nil

lemma append (hs : s.Spells ts) (ht : t.Spells us) (hled : t.Leads) : (s ++ t).Spells (ts ++ us) := by
  rw [Spells, toList_text_append]
  exact Tablewright.Reads.append hs ht hled

lemma word {w : String} (hs : s.Spells us) (ts : List Token)
    (hw : Reading.run .ready w.toList = (ts, .ready)) : Spells (.word w :: s) (ts ++ us) := by
  intro rest hrest
  rw [toList_text_cons, Piece.text, List.append_assoc, tokensFrom_append, hw, hs rest hrest,
    List.append_assoc]

lemma name {n : String} (hs : s.Spells us) (hled : s.Leads) :
    Spells (.name n :: s) (.name n.toList :: us) := by
  intro rest hrest
  rw [toList_text_cons, Piece.text, List.append_assoc,
    tokensFrom_quoteIdentifier n ((hled rest hrest).head?_ne (Or.inl rfl)), hs rest hrest]
  rfl

end Spells

end Sql

def commaTokens (parts : List (List Token)) : List Token := [Token.mark ','].intercalate parts

lemma commaTokens_cons_cons (ts us : List Token) (rest : List (List Token)) :
    commaTokens (ts :: us :: rest) = ts ++ .mark ',' :: commaTokens (us :: rest) := rfl

lemma commaTokens_singleton (ts : List Token) : commaTokens [ts] = ts := by
  simp [commaTokens, List.intercalate]

lemma Sql.Spells.commas {parts : List Sql} {tss : List (List Token)}
    (h : List.Forall₂ Sql.Spells parts tss) : (Sql.commas parts).Spells (commaTokens tss) := by
  induction h with
  | nil => exact .nil
  | @cons s ts parts tss hs hrest ih =>
    cases hrest with
    | nil =>
      rw [Sql.commas, Sql.separated_singleton, commaTokens_singleton]
      exact hs
    | @cons s' ts' parts tss hs' hrest =>
      have hcomma := ih.word (w := ", ") [.mark ','] (by decide)
      exact hs.append hcomma (.word ⟨',', by decide, by decide⟩)

lemma Sql.Spells.commas_map {α : Type} {sql : α → Sql} {tokens : α → List Token}
    (h : ∀ x, (sql x).Spells (tokens x)) (xs : List α) :
    (Sql.commas (xs.map sql)).Spells (commaTokens (xs.map tokens)) := by
  refine .commas (List.forall₂_map_left_iff.mpr (List.forall₂_map_right_iff.mpr ?_))
  exact List.forall₂_same.mpr fun x _ => h x

def TableColumn.tokens (c : TableColumn) : List Token :=
  [.name c.table.toList, .mark '.', .name c.name.toList]

def Supply.side : Supply → Side
  | .param _ => .hole
  | .literal v =>
    match v.literal with
    | .ok text => .literal (tokens text)
    | .error _ => .literal []

def Operand.side : Operand → Side
  | .supply s => s.side
  | .column c => .column c.table.toList c.name.toList

def Comparison.atom (c : Comparison) : Atom :=
  ⟨c.column.table.toList, c.column.name.toList, c.operator, c.operand.side⟩

lemma Operand.ReadAs.side_eq {o : Operand} {side : Side} (h : o.ReadAs side) : side = o.side := by
  cases h with
  | param p => rfl
  | literal hv => simp only [Operand.side, Supply.side, hv]
  | column c => rfl

lemma Comparison.ReadAs.atom_eq {c : Comparison} {a : Atom} (h : c.ReadAs a) : a = c.atom := by
  obtain ⟨table, name, operator, right⟩ := a
  obtain ⟨htable, hname, hoperator, hright⟩ := h
  simp only at htable hname hoperator hright
  rw [Comparison.atom, ← htable, ← hname, ← hoperator, ← hright.side_eq]

lemma Operand.writable_of_sql {o : Operand} {s : Sql} (h : o.sql = .ok s) : o.Writable := by
  match o with
  | .supply (.param p) => trivial
  | .supply (.literal v) =>
    have hv : (Supply.literal v).sql = .ok s := h
    obtain ⟨text, htext, -⟩ := Supply.sql_eq_ok_iff.mp hv
    exact ⟨text, htext⟩
  | .column c => trivial

lemma Operand.reads_side {o : Operand} {s : Sql} (h : o.sql = .ok s) :
    s.Spells o.side.tokens ∧ o.side.Legible := by
  obtain ⟨s', side, hs', hread, hlegible, hreads⟩ := Operand.reads (Operand.writable_of_sql h)
  obtain rfl := Except.ok.inj (hs'.symm.trans h)
  obtain rfl := hread.side_eq
  exact ⟨hreads, hlegible⟩

namespace Token

def inOperand : Token → Bool
  | word w => w = "NULL".toList
  | mark c => c = '.' ∨ c = '-'
  | relation _ | bad => false
  | name _ | text _ | blob _ | number _ | hole => true

def inSupply : Token → Bool
  | mark c => c = '-'
  | t => t.inOperand

def inCondition : Token → Bool
  | word w => ["AND", "OR", "LIKE", "IS", "NOT", "NULL"].any fun k => w = k.toList
  | mark c => c ≠ ','
  | _ => true

lemma inOperand_of_inSupply {t : Token} (h : t.inSupply = true) : t.inOperand = true := by
  cases t with
  | mark c => exact decide_eq_true (Or.inr (of_decide_eq_true h))
  | _ => exact h

lemma inCondition_of_inOperand {t : Token} (h : t.inOperand = true) : t.inCondition = true := by
  cases t with
  | word w =>
    obtain rfl := of_decide_eq_true h
    decide
  | mark c =>
    rcases of_decide_eq_true h with rfl | rfl <;> decide
  | relation r | bad => cases h
  | name n | text s | blob ds | number n | hole => rfl

end Token

lemma Side.Legible.inSupply {ts : List Token} (h : (literal ts).Legible) :
    ∀ t ∈ ts, t.inSupply = true := by
  have hside : side? ts = some (.literal ts) := h.side
  intro t ht
  unfold side? at hside
  split at hside
  · cases hside
  · split at hside <;> cases hside
  · next c n =>
    split at hside
    · next hc =>
      simp only [List.mem_cons, List.not_mem_nil, or_false] at ht
      rcases ht with rfl | rfl
      · exact decide_eq_true hc
      · rfl
    · cases hside
  · exact List.mem_singleton.mp ht ▸ rfl
  · exact List.mem_singleton.mp ht ▸ rfl
  · exact List.mem_singleton.mp ht ▸ rfl
  · next w =>
    split at hside
    · next hw =>
      obtain rfl := List.mem_singleton.mp ht
      rw [hw]
      decide
    · cases hside
  · cases hside

lemma Operator.inCondition_tokens (o : Operator) : ∀ t ∈ o.tokens, t.inCondition = true := by
  cases o <;> decide

lemma Supply.inSupply_side (v : Supply) : ∀ t ∈ v.side.tokens, t.inSupply = true := by
  cases v with
  | param p => exact List.forall_mem_singleton.mpr rfl
  | literal v =>
    cases hv : v.literal with
    | error e =>
      simp only [side, hv, Side.tokens]
      exact List.forall_mem_nil _
    | ok text =>
      have hsql : (Supply.literal v).sql = .ok [.literal text] :=
        Supply.sql_eq_ok_iff.mpr ⟨text, hv, rfl⟩
      have hlegible := (Operand.reads_side (o := .supply (.literal v)) hsql).2
      simp only [Operand.side, side, hv] at hlegible ⊢
      exact hlegible.inSupply

lemma Operand.inOperand_side (o : Operand) : ∀ t ∈ o.side.tokens, t.inOperand = true := by
  cases o with
  | supply v => exact fun t ht => Token.inOperand_of_inSupply (v.inSupply_side t ht)
  | column c => simp [side, Side.tokens, Token.inOperand]

lemma Atom.inCondition_tokens {a : Atom} (h : ∀ t ∈ a.right.tokens, t.inOperand = true) :
    ∀ t ∈ a.tokens, t.inCondition = true :=
  forall_tokens (fun _ => rfl) rfl a.operator.inCondition_tokens
    fun t ht => Token.inCondition_of_inOperand (h t ht)

namespace Predicate

variable {schema : Schema}

def joinAllTokens (k : Connective) : List (List Token) → List Token
  | [] => []
  | ts :: tss => joinTokens k ts tss

mutual

/-- The tokens of a neat condition inside a group of the given kind, if it is in one. -/
def tokens (within : Option Connective) : Predicate → List Token
  | comparison c => c.atom.tokens
  | group k items => embraceTokens within k (joinAllTokens k (memberTokens k items))
  | stray _ => []

def memberTokens (k : Connective) : List Predicate → List (List Token)
  | [] => []
  | p :: rest => tokens (some k) p :: memberTokens k rest

end

mutual

/-- A condition as it is read: the members of a group are taken together from the left. -/
def expression : Predicate → Option Expression
  | comparison c => some (.atom c.atom)
  | group k items =>
    match memberExpressions items with
    | some (e :: es) => some (.joined k e es)
    | _ => none
  | stray _ => none

def memberExpressions : List Predicate → Option (List Expression)
  | [] => some []
  | p :: rest =>
    match expression p, memberExpressions rest with
    | some e, some es => some (e :: es)
    | _, _ => none

end

structure Stands (within : Option Connective) (p : Predicate) (s : Sql) (r : Rendering within) :
    Prop where
  sql : r.sql = s
  tokens : r.tokens = p.tokens within
  expression : p.expression = some r.expression

lemma inCondition_join {k : Connective} {tss : List (List Token)}
    (h : ∀ ts ∈ tss, ∀ t ∈ ts, t.inCondition = true) :
    ∀ t ∈ joinAllTokens k tss, t.inCondition = true := by
  cases tss with
  | nil => exact List.forall_mem_nil _
  | cons ts tss =>
    rw [List.forall_mem_cons] at h
    intro t ht
    rcases List.mem_append.mp ht with ht | ht
    · exact h.1 t ht
    · obtain ⟨us, hus, ht⟩ := List.mem_flatMap.mp ht
      rcases List.mem_cons.mp ht with rfl | ht
      · cases k <;> decide
      · exact h.2 us hus t ht

lemma inCondition_embrace {within : Option Connective} {k : Connective} {ts : List Token}
    (h : ∀ t ∈ ts, t.inCondition = true) :
    ∀ t ∈ embraceTokens within k ts, t.inCondition = true := by
  rw [embraceTokens]
  split
  · intro t ht
    rcases List.mem_append.mp ht with ht | ht
    · rcases List.mem_cons.mp ht with rfl | ht
      · rfl
      · exact h t ht
    · exact List.mem_singleton.mp ht ▸ rfl
  · exact h

mutual

lemma inCondition_tokens (within : Option Connective) :
    (p : Predicate) → ∀ t ∈ p.tokens within, t.inCondition = true
  | comparison c => by
    rw [tokens]
    exact Atom.inCondition_tokens c.operand.inOperand_side
  | group k items => by
    rw [tokens]
    exact inCondition_embrace (inCondition_join (inCondition_memberTokens k items))
  | stray v => by
    rw [tokens]
    exact List.forall_mem_nil _

lemma inCondition_memberTokens (k : Connective) :
    (items : List Predicate) → ∀ ts ∈ memberTokens k items, ∀ t ∈ ts, t.inCondition = true
  | [] => by
    rw [memberTokens]
    exact List.forall_mem_nil _
  | p :: rest => by
    rw [memberTokens]
    exact List.forall_mem_cons.mpr
      ⟨inCondition_tokens (some k) p, inCondition_memberTokens k rest⟩

end

lemma reads_atom {c : Comparison} {s : Sql} (h : c.sql = .ok s) :
    s.Spells c.atom.tokens ∧ Fits (some .and) c.atom.tokens (.atom c.atom) := by
  obtain ⟨operand, hoperand, -⟩ := map_eq_ok_iff.mp h
  obtain ⟨s', a, hs', hread, hreads, hfits⟩ := Comparison.reads (Operand.writable_of_sql hoperand)
  obtain rfl := Except.ok.inj (hs'.symm.trans h)
  obtain rfl := hread.atom_eq
  exact ⟨hreads, hfits⟩

lemma rendering_of_comparison {c : Comparison} {s : Sql} (h : c.sql = .ok s)
    (within : Option Connective) : ∃ r : Rendering within, (comparison c).Stands within s r := by
  obtain ⟨hreads, hfits⟩ := reads_atom h
  refine ⟨⟨s, c.atom.tokens, .atom c.atom, hreads, hfits.of_and within⟩, rfl, ?_, ?_⟩
  · rw [tokens]
  · rw [expression]

lemma memberSql_cons_eq_ok {k : Connective} {p : Predicate} {rest : List Predicate} {parts : List Sql}
    (hp : p.connective? ≠ some k) (h : memberSql k (p :: rest) = .ok parts) :
    ∃ here others, p.sql (some k) = .ok here ∧ memberSql k rest = .ok others ∧
      parts = here :: others := by
  cases p with
  | comparison c =>
    rw [memberSql] at h
    obtain ⟨here, hhere, h⟩ := bind_eq_ok_iff.mp h
    obtain ⟨others, hothers, rfl⟩ := map_eq_ok_iff.mp h
    exact ⟨here, others, by rw [sql, hhere], hothers, rfl⟩
  | group k' items =>
    have hne : k' ≠ k := fun hk => hp (congrArg some hk)
    rw [memberSql, if_neg hne] at h
    obtain ⟨here, hhere, h⟩ := bind_eq_ok_iff.mp h
    obtain ⟨others, hothers, rfl⟩ := map_eq_ok_iff.mp h
    exact ⟨here, others, hhere, hothers, rfl⟩
  | stray v =>
    rw [memberSql] at h
    cases h

lemma length_of_memberTokens (k : Connective) (items : List Predicate) :
    (memberTokens k items).length = items.length := by
  induction items with
  | nil => rw [memberTokens]; rfl
  | cons p rest ih => rw [memberTokens, List.length_cons, ih, List.length_cons]

lemma exists_renderings {k : Connective} {items : List Predicate} {parts : List Sql}
    (hkinds : ∀ p ∈ items, p.connective? ≠ some k)
    (h : ∀ p ∈ items, ∀ s, p.sql (some k) = .ok s →
      ∃ r : Rendering (some k), p.Stands (some k) s r)
    (hparts : memberSql k items = .ok parts) :
    ∃ rs : List (Rendering (some k)), parts = rs.map (·.sql) ∧
      memberTokens k items = rs.map (·.tokens) ∧
      memberExpressions items = some (rs.map (·.expression)) := by
  induction items generalizing parts with
  | nil =>
    rw [memberSql] at hparts
    obtain rfl := Except.ok.inj hparts
    exact ⟨[], rfl, by rw [memberTokens]; rfl, by rw [memberExpressions]; rfl⟩
  | cons p rest ih =>
    rw [List.forall_mem_cons] at hkinds h
    obtain ⟨here, others, hhere, hothers, rfl⟩ := memberSql_cons_eq_ok hkinds.1 hparts
    obtain ⟨r, rfl, htokens, hexpression⟩ := h.1 here hhere
    obtain ⟨rs, rfl, htokens', hexpressions⟩ := ih hkinds.2 h.2 hothers
    refine ⟨r :: rs, rfl, ?_, ?_⟩
    · rw [memberTokens, ← htokens, htokens', List.map_cons]
    · rw [memberExpressions, hexpression, hexpressions, List.map_cons]

lemma Flat.rendering {p : Predicate} (hflat : p.Flat) (hsolid : p.Solid)
    {within : Option Connective} {s : Sql} (hk : within.isSome → p.connective? ≠ within)
    (h : p.sql within = .ok s) : ∃ r : Rendering within, p.Stands within s r := by
  induction hflat generalizing within s with
  | comparison c =>
    rw [sql] at h
    exact rendering_of_comparison h within
  | @group k items hkinds _ ih =>
    obtain ⟨hne, hsolids⟩ := every_group_iff.mp hsolid
    rw [sql] at h
    obtain ⟨parts, hparts, rfl⟩ := map_eq_ok_iff.mp h
    obtain ⟨rs, rfl, htokens, hexpressions⟩ := exists_renderings hkinds
      (fun p hp s hs => ih p hp (hsolids p hp) (fun _ => hkinds p hp) hs) hparts
    -- the group is not empty, so there is a first rendering for the others to be joined to
    obtain ⟨r, rs, rfl⟩ : ∃ r rs', rs = r :: rs' := by
      refine List.exists_cons_of_ne_nil ?_
      rintro rfl
      have hlength := length_of_memberTokens k items
      rw [htokens] at hlength
      exact hne (List.eq_nil_of_length_eq_zero hlength.symm)
    have hwithin : within ≠ some k := fun h => hk (h ▸ rfl) h.symm
    obtain ⟨g, hsql, hgtokens, hexpression⟩ := exists_rendering_joined hwithin r rs
    refine ⟨g, hsql, ?_, ?_⟩
    · rw [hgtokens, tokens, htokens]
      rfl
    · rw [hexpression, expression, hexpressions]
      rfl

lemma Flat.fits {p : Predicate} (hflat : p.Flat) (hsolid : p.Solid) {s : Sql}
    (h : p.sql none = .ok s) : ∃ e, p.expression = some e ∧ Fits none (p.tokens none) e := by
  obtain ⟨r, -, htokens, hexpression⟩ := hflat.rendering hsolid (by simp) h
  rw [← htokens]
  exact ⟨r.expression, hexpression, r.fits⟩

lemma Neat.fits {p : Predicate} {s : Sql} (hneat : p.Neat schema) (h : p.sql none = .ok s) :
    ∃ e, p.expression = some e ∧ Fits none (p.tokens none) e :=
  have ⟨hflat, hwide, _⟩ := p.neat_iff.mp hneat
  hflat.fits hwide.solid h

lemma spells_joined {k : Connective} {parts : List Sql} {tss : List (List Token)}
    (h : List.Forall₂ Sql.Spells parts tss) :
    (Sql.separated k.keyword parts).Spells (joinAllTokens k tss) := by
  have hkeyword : Reading.run .ready k.keyword.toList = ([k.token], .ready) := by
    cases k <;> decide
  induction h with
  | nil => exact .nil
  | @cons s ts parts tss hs hrest ih =>
    cases hrest with
    | nil =>
      rw [Sql.separated_singleton, joinAllTokens, joinTokens, List.flatMap_nil, List.append_nil]
      exact hs
    | @cons s' ts' parts tss hs' hrest =>
      refine hs.append (ih.word [k.token] hkeyword) (.word ⟨' ', ?_, Or.inl rfl⟩)
      cases k <;> decide

lemma spells_embrace {within : Option Connective} {k : Connective} {s : Sql} {ts : List Token}
    (h : s.Spells ts) : (embrace within k s).Spells (embraceTokens within k ts) := by
  rw [embrace, embraceTokens]
  split
  · have hclosing := Sql.Spells.nil.word (w := ")") [.mark ')'] (by decide)
    have hbody := h.append hclosing (.word ⟨')', by decide, by decide⟩)
    exact hbody.word (w := "(") [.mark '('] (by decide)
  · exact h

lemma spells_members {k : Connective} {items : List Predicate} {parts : List Sql}
    (hkinds : ∀ p ∈ items, p.connective? ≠ some k)
    (h : ∀ p ∈ items, ∀ s, p.sql (some k) = .ok s → s.Spells (p.tokens (some k)))
    (hparts : memberSql k items = .ok parts) :
    List.Forall₂ Sql.Spells parts (memberTokens k items) := by
  induction items generalizing parts with
  | nil =>
    rw [memberSql] at hparts
    obtain rfl := Except.ok.inj hparts
    rw [memberTokens]
    exact .nil
  | cons p rest ih =>
    rw [List.forall_mem_cons] at hkinds h
    obtain ⟨here, others, hhere, hothers, rfl⟩ := memberSql_cons_eq_ok hkinds.1 hparts
    rw [memberTokens]
    exact .cons (h.1 here hhere) (ih hkinds.2 h.2 hothers)

lemma Flat.spells {p : Predicate} (hflat : p.Flat) {within : Option Connective} {s : Sql}
    (h : p.sql within = .ok s) : s.Spells (p.tokens within) := by
  induction hflat generalizing within s with
  | comparison c =>
    rw [sql] at h
    rw [tokens]
    exact (reads_atom h).1
  | @group k items hkinds _ ih =>
    rw [sql] at h
    obtain ⟨parts, hparts, rfl⟩ := map_eq_ok_iff.mp h
    rw [tokens]
    have hmembers := spells_members hkinds (fun p hp s hs => ih p hp hs) hparts
    exact spells_embrace (spells_joined hmembers)

end Predicate

def SelectItem.tokens : SelectItem → List Token
  | column c => c.tokens
  | count c =>
    .keyword "COUNT" :: .mark '(' :: targetTokens c.column ++
      [.mark ')', .keyword "AS", .name c.label.toList]
where
  targetTokens : Option TableColumn → List Token
    | none => [.mark '*']
    | some c => c.tokens

def SortKey.tokens (k : SortKey) : List Token :=
  k.column.tokens ++ [.keyword (if k.descending then "DESC" else "ASC")]

def joinsTokens : List Join → List Token
  | [] => []
  | j :: rest =>
    [.keyword "INNER", .keyword "JOIN", .name j.table.name.toList, .keyword "ON"] ++
      j.on.tokens none ++ joinsTokens rest

def filterTokens : Option Predicate → List Token
  | none => []
  | some p => .keyword "WHERE" :: p.tokens none

def sortingTokens : List SortKey → List Token
  | [] => []
  | sorting => .keyword "ORDER" :: .keyword "BY" :: commaTokens (sorting.map (·.tokens))

def limitTokens : Option Nat → List Token
  | none => []
  | some _ => [.keyword "LIMIT", .hole]

def returningTokens : Bool → List Token
  | false => []
  | true => [.keyword "RETURNING", .mark '*']

def Select.tokens (s : Select) : List Token :=
  .keyword "SELECT" :: (commaTokens (s.resultItems.map (·.tokens)) ++
    .keyword "FROM" :: (s.source.toList.map (fun t => .name t.name.toList) ++
      (joinsTokens s.joins ++ (filterTokens s.filter ++
        (sortingTokens s.sorting ++ limitTokens s.limit)))))

def Insert.tokens (s : Insert) : List Token :=
  .keyword "INSERT" :: .keyword "INTO" :: .name s.table.name.toList :: .mark '(' ::
    (commaTokens (s.assignments.map fun a => [.name a.1.name.toList]) ++
      .mark ')' :: .keyword "VALUES" :: .mark '(' ::
        (commaTokens (s.assignments.map fun a => a.2.side.tokens) ++
          .mark ')' :: returningTokens s.returning))

def Update.tokens (s : Update) : List Token :=
  .keyword "UPDATE" :: .name s.table.name.toList :: .keyword "SET" ::
    (commaTokens (s.assignments.map fun a =>
        .name a.1.name.toList :: .relation ['='] :: a.2.side.tokens) ++
      (filterTokens s.filter ++ returningTokens s.returning))

def Delete.tokens (s : Delete) : List Token :=
  .keyword "DELETE" :: .keyword "FROM" :: .name s.table.name.toList ::
    (filterTokens s.filter ++ returningTokens s.returning)

def Statement.tokens : Statement → List Token
  | select s => s.tokens
  | insert s => s.tokens
  | update s => s.tokens
  | delete s => s.tokens
  | ddl _ => []

section Clauses

open Sql (Spells Leads)

lemma SelectItem.spells (i : SelectItem) : i.sql.Spells i.tokens := by
  cases i with
  | column c => exact c.reads
  | count c =>
    obtain ⟨column, label⟩ := c
    have hlabel : Spells [.word ") AS ", .name label]
        [.mark ')', .keyword "AS", .name label.toList] :=
      (Spells.nil.name .nil).word [.mark ')', .keyword "AS"] (by decide)
    have hled : Leads [.word ") AS ", .name label] := .word ⟨')', by decide, by decide⟩
    refine Spells.word ?_ [.keyword "COUNT", .mark '('] (by decide)
    cases column with
    | none => exact (Spells.nil.word (w := "*") [.mark '*'] (by decide)).append hlabel hled
    | some c => exact Spells.append c.reads hlabel hled

lemma SortKey.spells (k : SortKey) : k.sql.Spells k.tokens := by
  have hword : ∀ descending : Bool, Spells [.word (if descending then " DESC" else " ASC")]
      [.keyword (if descending then "DESC" else "ASC")] := by
    intro descending rest hrest
    rw [Sql.toList_text_cons, Piece.text, List.append_assoc]
    cases descending
    · exact tokensFrom_of_ends (m := .word ['C', 'S', 'A']) hrest rfl rfl rfl
    · exact tokensFrom_of_ends (m := .word ['C', 'S', 'E', 'D']) hrest rfl rfl rfl
  refine Spells.append k.column.reads (hword k.descending) (.word ⟨' ', ?_, by decide⟩)
  cases k.descending <;> decide

lemma leads_joins {joins : List Join} {s : Sql} (h : joinsSql joins = .ok s) : s.Leads := by
  cases joins with
  | nil =>
    obtain rfl := Except.ok.inj h
    exact .nil
  | cons j joins =>
    obtain ⟨on, others, -, -, rfl⟩ := joinsSql_cons_eq_ok h
    exact .word ⟨' ', by decide, by decide⟩

lemma spells_joins {joins : List Join} {s : Sql} (hflat : ∀ j ∈ joins, j.on.Flat)
    (h : joinsSql joins = .ok s) : s.Spells (joinsTokens joins) := by
  induction joins generalizing s with
  | nil =>
    obtain rfl := Except.ok.inj h
    exact .nil
  | cons j joins ih =>
    rw [List.forall_mem_cons] at hflat
    obtain ⟨on, others, hon, hothers, rfl⟩ := joinsSql_cons_eq_ok h
    have hcondition := (hflat.1.spells hon).append (ih hflat.2 hothers) (leads_joins hothers)
    have htable := (hcondition.word (w := " ON ") [.keyword "ON"] (by decide)).name
      (n := j.table.name) (.word ⟨' ', by decide, by decide⟩)
    exact htable.word [.keyword "INNER", .keyword "JOIN"] (by decide)

lemma leads_filter {filter : Option Predicate} {s : Sql} (h : filterSql filter = .ok s) : s.Leads := by
  obtain ⟨-, rfl⟩ | ⟨p, condition, -, -, rfl⟩ := filterSql_eq_ok h
  · exact .nil
  · exact .word ⟨' ', by decide, by decide⟩

lemma spells_filter {filter : Option Predicate} {s : Sql} (hflat : ∀ p ∈ filter, p.Flat)
    (h : filterSql filter = .ok s) : s.Spells (filterTokens filter) := by
  obtain ⟨rfl, rfl⟩ | ⟨p, condition, rfl, hp, rfl⟩ := filterSql_eq_ok h
  · exact .nil
  · exact ((hflat p rfl).spells hp).word [.keyword "WHERE"] (by decide)

lemma leads_sorting (sorting : List SortKey) : (sortingSql sorting).Leads := by
  rw [sortingSql]
  split
  · exact .nil
  · exact .word ⟨' ', by decide, by decide⟩

lemma spells_sorting (sorting : List SortKey) : (sortingSql sorting).Spells (sortingTokens sorting) := by
  cases sorting with
  | nil => exact .nil
  | cons k sorting =>
    exact (Spells.commas_map SortKey.spells (k :: sorting)).word
      [.keyword "ORDER", .keyword "BY"] (by decide)

lemma leads_limit (limit : Option Nat) : (limitSql limit).Leads := by
  cases limit with
  | none => exact .nil
  | some n => exact .word ⟨' ', by decide, by decide⟩

lemma spells_limit (limit : Option Nat) : (limitSql limit).Spells (limitTokens limit) := by
  cases limit with
  | none => exact .nil
  | some n =>
    have hhole : Spells [.hole { value := some (.int n) }] [.hole] := by
      have htext : (Sql.text [.hole { value := some (.int n) }]).toList = ['?'] := by
        simp [Sql.text, Piece.text]
      rw [Spells, htext]
      exact reads_hole
    exact hhole.word [.keyword "LIMIT"] (by decide)

lemma leads_returning (returning : Bool) : (returningSql returning).Leads := by
  cases returning with
  | false => exact .nil
  | true => exact .word ⟨' ', by decide, by decide⟩

lemma spells_returning (returning : Bool) :
    (returningSql returning).Spells (returningTokens returning) := by
  cases returning with
  | false => exact .nil
  | true => exact Spells.nil.word (w := " RETURNING *") [.keyword "RETURNING", .mark '*'] (by decide)

lemma spells_supply {v : Supply} {s : Sql} (h : v.sql = .ok s) : s.Spells v.side.tokens :=
  (Operand.reads_side (o := .supply v) h).1

lemma spells_supplies {supplies : List Supply} {parts : List Sql}
    (h : suppliesSql supplies = .ok parts) :
    List.Forall₂ Spells parts (supplies.map (·.side.tokens)) := by
  induction supplies generalizing parts with
  | nil =>
    obtain rfl := Except.ok.inj h
    exact .nil
  | cons v supplies ih =>
    obtain ⟨here, others, hhere, hothers, rfl⟩ := suppliesSql_cons_eq_ok h
    exact .cons (spells_supply hhere) (ih hothers)

lemma spells_sets {assignments : List Assignment} {parts : List Sql}
    (h : suppliesSql (assignments.map (·.2)) = .ok parts) :
    List.Forall₂ Spells (assignments.zipWith (fun a v => .name a.1.name :: .word " = " :: v) parts)
      (assignments.map fun a => .name a.1.name.toList :: .relation ['='] :: a.2.side.tokens) := by
  induction assignments generalizing parts with
  | nil => exact .nil
  | cons a assignments ih =>
    obtain ⟨here, others, hhere, hothers, rfl⟩ := suppliesSql_cons_eq_ok h
    have hset := ((spells_supply hhere).word (w := " = ") [.relation ['=']] (by decide)).name
      (n := a.1.name) (.word ⟨' ', by decide, by decide⟩)
    exact .cons hset (ih hothers)

lemma Select.check_eq_ok {s : Select} {source : Table} (h : s.check = .ok source) :
    s.source = some source := by
  rw [Select.check] at h
  split at h
  · cases h
  · next t hsource =>
    obtain ⟨-, -, rfl⟩ := map_eq_ok_iff.mp h
    exact hsource

lemma Select.spells {s : Select} (hjoined : ∀ j ∈ s.joins, j.on.Flat)
    (hfiltered : ∀ p ∈ s.filter, p.Flat) {sql : Sql} (h : s.sql = .ok sql) :
    sql.Spells s.tokens := by
  obtain ⟨source, joins, filter, hcheck, hjoins, hfilter, rfl⟩ := Select.sql_eq_ok h
  have hitems := (Spells.commas_map SelectItem.spells s.resultItems).word (w := "SELECT ")
    [.keyword "SELECT"] (by decide)
  have hsource := ((spells_joins hjoined hjoins).name (n := source.name)
    (leads_joins hjoins)).word (w := " FROM ") [.keyword "FROM"] (by decide)
  have hfrom := hitems.append hsource (.word ⟨' ', by decide, by decide⟩)
  have hwhere := hfrom.append (spells_filter hfiltered hfilter) (leads_filter hfilter)
  have hsorting := hwhere.append (spells_sorting s.sorting) (leads_sorting s.sorting)
  have hlimit := hsorting.append (spells_limit s.limit) (leads_limit s.limit)
  refine Eq.mp (congrArg _ ?_) hlimit
  simp [Select.tokens, Select.check_eq_ok hcheck]

lemma Insert.spells {s : Insert} {sql : Sql} (h : s.sql = .ok sql) :
    sql.Spells s.tokens := by
  obtain ⟨values, hvalues, rfl⟩ := Insert.sql_eq_ok h
  have hcolumn : ∀ a : Assignment, Spells [.name a.1.name] [.name a.1.name.toList] :=
    fun a => Spells.nil.name .nil
  have hcolumns := Spells.commas_map hcolumn s.assignments
  have htarget := ((hcolumns.word (w := " (") [.mark '('] (by decide)).name (n := s.table.name)
    (.word ⟨' ', by decide, by decide⟩)).word (w := "INSERT INTO ")
      [.keyword "INSERT", .keyword "INTO"] (by decide)
  have hsupplies := (Spells.commas (spells_supplies hvalues)).word (w := ") VALUES (")
    [.mark ')', .keyword "VALUES", .mark '('] (by decide)
  have hclosing := (spells_returning s.returning).word (w := ")") [.mark ')'] (by decide)
  have hvalues := htarget.append hsupplies (.word ⟨')', by decide, by decide⟩)
  have hall := hvalues.append hclosing (.word ⟨')', by decide, by decide⟩)
  refine Eq.mp (congrArg _ ?_) hall
  simp [Insert.tokens, Function.comp_def]

lemma Update.spells {s : Update} (hfiltered : ∀ p ∈ s.filter, p.Flat) {sql : Sql}
    (h : s.sql = .ok sql) : sql.Spells s.tokens := by
  obtain ⟨values, filter, hvalues, hfilter, rfl⟩ := Update.sql_eq_ok h
  have hsets := (((Spells.commas (spells_sets hvalues)).word (w := " SET ") [.keyword "SET"]
    (by decide)).name (n := s.table.name) (.word ⟨' ', by decide, by decide⟩)).word (w := "UPDATE ")
      [.keyword "UPDATE"] (by decide)
  have hwhere := hsets.append (spells_filter hfiltered hfilter) (leads_filter hfilter)
  have hall := hwhere.append (spells_returning s.returning) (leads_returning s.returning)
  refine Eq.mp (congrArg _ ?_) hall
  simp [Update.tokens]

lemma Delete.spells {s : Delete} (hfiltered : ∀ p ∈ s.filter, p.Flat) {sql : Sql}
    (h : s.sql = .ok sql) : sql.Spells s.tokens := by
  obtain ⟨filter, hfilter, rfl⟩ := Delete.sql_eq_ok h
  have htarget := ((spells_filter hfiltered hfilter).name (n := s.table.name)
    (leads_filter hfilter)).word (w := "DELETE FROM ") [.keyword "DELETE", .keyword "FROM"]
      (by decide)
  have hall := htarget.append (spells_returning s.returning) (leads_returning s.returning)
  refine Eq.mp (congrArg _ ?_) hall
  simp [Delete.tokens]

end Clauses

lemma exists_sql_of_joinsSql {joins : List Join} {sql : Sql} (h : joinsSql joins = .ok sql) :
    ∀ j ∈ joins, ∃ t, j.on.sql none = .ok t := by
  induction joins generalizing sql with
  | nil => exact List.forall_mem_nil _
  | cons j joins ih =>
    obtain ⟨on, others, hon, hothers, -⟩ := joinsSql_cons_eq_ok h
    exact List.forall_mem_cons.mpr ⟨⟨on, hon⟩, ih hothers⟩

lemma exists_sql_of_filterSql {filter : Option Predicate} {sql : Sql}
    (h : filterSql filter = .ok sql) : ∀ p ∈ filter.toList, ∃ t, p.sql none = .ok t := by
  obtain ⟨rfl, -⟩ | ⟨p, t, rfl, hp, -⟩ := filterSql_eq_ok h
  · exact List.forall_mem_nil _
  · exact List.forall_mem_singleton.mpr ⟨t, hp⟩

namespace Statement

lemma tokens_of_flat {s : Statement} (hd : s.isDdl = false) (hflat : ∀ p ∈ s.conditions, p.Flat)
    {c : Compiled} (h : s.compile = .ok c) : Tablewright.tokens c.sql = s.tokens := by
  obtain ⟨sql, hsql, rfl⟩ := map_eq_ok_iff.mp h
  cases s with
  | select s =>
    have hjoined : ∀ j ∈ s.joins, j.on.Flat := fun j hj =>
      hflat _ (List.mem_append_left _ (List.mem_map_of_mem hj))
    have hfiltered : ∀ p ∈ s.filter, p.Flat := fun p hp =>
      hflat p (List.mem_append_right _ (Option.mem_toList.mpr hp))
    exact (Select.spells hjoined hfiltered hsql).tokensFrom_eq
  | insert s => exact (Insert.spells hsql).tokensFrom_eq
  | update s => exact (Update.spells (fun p hp => hflat p (Option.mem_toList.mpr hp)) hsql).tokensFrom_eq
  | delete s => exact (Delete.spells (fun p hp => hflat p (Option.mem_toList.mpr hp)) hsql).tokensFrom_eq
  | ddl d => cases hd

lemma Neat.conditions {schema : Schema} {s : Statement} (hneat : s.Neat schema) :
    s.isDdl = false ∧ ∀ p ∈ s.conditions, p.Neat schema := by
  cases s with
  | select s =>
    refine ⟨rfl, fun p hp => ?_⟩
    rcases List.mem_append.mp hp with hp | hp
    · obtain ⟨j, hj, rfl⟩ := List.mem_map.mp hp
      exact Select.Neat.joins hneat j hj
    · exact Select.Neat.filter hneat p (Option.mem_toList.mp hp)
  | insert s => exact ⟨rfl, List.forall_mem_nil _⟩
  | update s => exact ⟨rfl, fun p hp => Update.Neat.filter hneat p (Option.mem_toList.mp hp)⟩
  | delete s => exact ⟨rfl, fun p hp => Delete.Neat.filter hneat p (Option.mem_toList.mp hp)⟩
  | ddl d => exact hneat.elim

lemma exists_sql_of_compile {s : Statement} {c : Compiled} (h : s.compile = .ok c) :
    ∀ p ∈ s.conditions, ∃ t, p.sql none = .ok t := by
  obtain ⟨sql, hsql, -⟩ := map_eq_ok_iff.mp h
  cases s with
  | select s =>
    obtain ⟨source, joins, filter, -, hjoins, hfilter, -⟩ := Select.sql_eq_ok hsql
    exact List.forall_mem_append.mpr
      ⟨List.forall_mem_map.mpr (exists_sql_of_joinsSql hjoins), exists_sql_of_filterSql hfilter⟩
  | update s =>
    obtain ⟨values, filter, -, hfilter, -⟩ := Update.sql_eq_ok hsql
    exact exists_sql_of_filterSql hfilter
  | delete s =>
    obtain ⟨filter, hfilter, -⟩ := Delete.sql_eq_ok hsql
    exact exists_sql_of_filterSql hfilter
  | insert s | ddl d => exact List.forall_mem_nil _

lemma tokens_compile {s : Statement} (hd : s.isDdl = false) {c : Compiled}
    (h : s.compile = .ok c) : Tablewright.tokens c.sql = s.opened.tokens := by
  refine tokens_of_flat (s.isDdl_opened.trans hd) ?_ (s.compile_opened.trans h)
  rw [s.conditions_opened]
  refine List.forall_mem_map.mpr fun p hp => ?_
  obtain ⟨t, ht⟩ := exists_sql_of_compile h p hp
  exact (p.whole_of_sql ht).flat_opened

lemma tokens_sql {schema : Schema} {s : Statement} (hneat : s.Neat schema)
    {c : Compiled} (h : s.compile = .ok c) : Tablewright.tokens c.sql = s.tokens := by
  obtain ⟨hd, hconditions⟩ := hneat.conditions
  exact tokens_of_flat hd (fun p hp => (p.neat_iff.mp (hconditions p hp)).1) h

end Statement

end Tablewright
