import Mathlib.Data.List.Induction
import Tablewright.Proofs.Statement.Clause

namespace Tablewright

def Opens (stops ts : List Token) : Prop := ∀ t ∈ ts.head?, t ∈ stops

namespace Opens

variable {stops ts us : List Token}

lemma nil : Opens stops [] := fun _ ht => absurd ht (Option.not_mem_none _)

lemma cons {t : Token} (ht : t ∈ stops) (ts : List Token) : Opens stops (t :: ts) :=
  fun _ hu => Option.some.inj hu ▸ ht

lemma append (ht : Opens stops ts) (hu : Opens stops us) : Opens stops (ts ++ us) := by
  cases ts with
  | nil => exact hu
  | cons t ts => exact cons (ht t rfl) (ts ++ us)

end Opens

lemma append_eq_of_stops {stops xs ys rest rest' : List Token} (hx : xs.Disjoint stops)
    (hy : ys.Disjoint stops) (hr : Opens stops rest) (hr' : Opens stops rest')
    (h : xs ++ rest = ys ++ rest') : xs = ys ∧ rest = rest' := by
  induction xs generalizing ys with
  | nil =>
    cases ys with
    | nil => exact ⟨rfl, h⟩
    | cons y ys =>
      -- the first stop would stand inside the longer part
      obtain rfl : rest = y :: ys ++ rest' := h
      exact (hy List.mem_cons_self (hr y rfl)).elim
  | cons x xs ih =>
    cases ys with
    | nil =>
      obtain rfl : x :: xs ++ rest = rest' := h
      exact (hx List.mem_cons_self (hr' x rfl)).elim
    | cons y ys =>
      obtain ⟨rfl, htail⟩ := List.cons.inj h
      rw [List.disjoint_cons_left] at hx hy
      obtain ⟨rfl, hrest⟩ := ih hx.2 hy.2 htail
      exact ⟨rfl, hrest⟩

lemma commaTokens_injective {tss uss : List (List Token)}
    (ht : ∀ ts ∈ tss, ts ≠ [] ∧ Token.mark ',' ∉ ts) (hu : ∀ ts ∈ uss, ts ≠ [] ∧ Token.mark ',' ∉ ts)
    (h : commaTokens tss = commaTokens uss) : tss = uss := by
  have hsplit : ∀ {tss : List (List Token)}, (∀ ts ∈ tss, ts ≠ [] ∧ Token.mark ',' ∉ ts) →
      tss ≠ [] → (commaTokens tss).splitOn (.mark ',') = tss := fun h hne =>
    List.splitOn_intercalate _ (fun ts hts => (h ts hts).2) hne
  have hempty : ∀ {tss : List (List Token)}, (∀ ts ∈ tss, ts ≠ [] ∧ Token.mark ',' ∉ ts) →
      commaTokens tss = [] → tss = [] := by
    intro tss htss hnil
    by_contra hne
    have hparts := hsplit htss hne
    rw [hnil, List.splitOn_nil] at hparts
    exact (htss [] (hparts ▸ List.mem_singleton_self _)).1 rfl
  by_cases hne : tss = []
  · rw [hne] at h ⊢
    exact (hempty hu h.symm).symm
  · have hne' : uss ≠ [] := fun hnil => hne (hempty ht (by rw [h, hnil]; rfl))
    rw [← hsplit ht hne, ← hsplit hu hne', h]

lemma map_eq_map_of_forall {α β γ : Type} {f : α → β} {g : α → γ} {xs ys : List α}
    (h : xs.map f = ys.map f) (hfg : ∀ x ∈ xs, ∀ y ∈ ys, f x = f y → g x = g y) :
    xs.map g = ys.map g := by
  induction xs generalizing ys with
  | nil => rw [List.map_eq_nil_iff.mp h.symm]
  | cons x xs ih =>
    obtain ⟨y, ys, rfl, hxy, hrest⟩ := List.map_eq_cons_iff.mp h.symm
    rw [List.map_cons, List.map_cons, hfg x List.mem_cons_self y List.mem_cons_self hxy.symm,
      ih hrest.symm fun a ha b hb => hfg a (List.mem_cons_of_mem x ha) b (List.mem_cons_of_mem y hb)]

lemma map_eq_of_commaTokens {α β : Type} {f : α → List Token} {g : α → β} {xs ys : List α}
    (hx : ∀ x ∈ xs, f x ≠ [] ∧ Token.mark ',' ∉ f x) (hy : ∀ y ∈ ys, f y ≠ [] ∧ Token.mark ',' ∉ f y)
    (h : commaTokens (xs.map f) = commaTokens (ys.map f))
    (hfg : ∀ x ∈ xs, ∀ y ∈ ys, f x = f y → g x = g y) : xs.map g = ys.map g :=
  map_eq_map_of_forall
    (commaTokens_injective (List.forall_mem_map.mpr hx) (List.forall_mem_map.mpr hy) h) hfg

def spelled : List Token → List Char
  | [.word w] => w
  | [.number n] => n
  | [.mark c, .number n] => c :: n
  | [.text t] => '\'' :: Text.doubleChars '\'' t ++ ['\'']
  | [.blob ds] => 'X' :: '\'' :: ds ++ ['\'']
  | _ => []

lemma LiteralText.spelled_tokens {cs : List Char} (h : LiteralText cs) :
    spelled (tokensFrom .ready cs) = cs := by
  cases h with
  | null => rw [reads_null.tokensFrom_eq]; decide
  | number hn => rw [hn.reads.tokensFrom_eq]; rfl
  | negative hn => rw [hn.reads_negative.tokensFrom_eq]; rfl
  | text t => rw [(reads_text t).tokensFrom_eq]; rfl
  | blob hx he => rw [(reads_blob hx he).tokensFrom_eq]; rfl

lemma LiteralText.ne_nil {cs : List Char} (h : LiteralText cs) : cs ≠ [] := by
  cases h with
  | null => decide
  | number hn =>
    obtain ⟨d, ds, rfl, -⟩ := hn.head
    exact List.cons_ne_nil d ds
  | negative | text | blob => exact List.cons_ne_nil _ _

/-- A supply without what a placeholder stands for; a literal is known by its text. -/
def Supply.outline : Supply → Supply
  | param _ => param {}
  | literal v =>
    match v.literal with
    | .ok text => literal (.text text)
    | .error _ => literal .null

def Operand.outline : Operand → Operand
  | supply s => supply s.outline
  | column c => column c

def Comparison.outline (c : Comparison) : Comparison := { c with operand := c.operand.outline }

namespace Predicate

mutual

def outline : Predicate → Predicate
  | comparison c => comparison c.outline
  | group k items => group k (outlines items)
  | stray v => stray v

def outlines : List Predicate → List Predicate
  | [] => []
  | p :: rest => p.outline :: outlines rest

end

end Predicate

lemma tokens_ne_nil_of_literal {v : Value} {text : String} (h : v.literal = .ok text) :
    tokens text ≠ [] := by
  intro hnil
  have hliteral := literalText_of_literal h
  have hspelled := hliteral.spelled_tokens
  rw [tokens] at hnil
  rw [hnil] at hspelled
  exact hliteral.ne_nil hspelled.symm

lemma Supply.outline_of_side {u v : Supply} (h : u.side = v.side) : u.outline = v.outline := by
  cases u with
  | param p =>
    cases v with
    | param q => rfl
    | literal v => cases hv : v.literal <;> simp [side, hv] at h
  | literal u =>
    cases v with
    | param q => cases hu : u.literal <;> simp [side, hu] at h
    | literal v =>
      cases hu : u.literal with
      | error e =>
        cases hv : v.literal with
        | error e' => simp only [outline, hu, hv]
        | ok text =>
          simp only [side, hu, hv, Side.literal.injEq] at h
          exact absurd h.symm (tokens_ne_nil_of_literal hv)
      | ok text =>
        cases hv : v.literal with
        | error e' =>
          simp only [side, hu, hv, Side.literal.injEq] at h
          exact absurd h (tokens_ne_nil_of_literal hu)
        | ok text' =>
          simp only [side, hu, hv, Side.literal.injEq] at h
          have hspelled := congrArg spelled h
          rw [tokens, tokens, (literalText_of_literal hu).spelled_tokens,
            (literalText_of_literal hv).spelled_tokens] at hspelled
          simp only [outline, hu, hv, String.toList_inj.mp hspelled]

lemma Supply.side_ne_column (v : Supply) (table name : List Char) : v.side ≠ .column table name := by
  cases v with
  | param p => exact nofun
  | literal v => cases hv : v.literal <;> simp [side, hv]

lemma Fits.unique {ts : List Token} {e f : Expression} (he : Fits none ts e) (hf : Fits none ts f) :
    e = f := by
  have hclosed : ∀ g : Expression, parse [] {} (.closed g) [] = some g := fun g => rfl
  have hread := (he [] [] nofun).symm.trans (hf [] [] nofun)
  rw [hclosed, hclosed] at hread
  exact Option.some.inj hread

section Names

variable {schema : Schema}

lemma Schema.Distinct.table_of_name (h : schema.Distinct) {t u : Table}
    (ht : t ∈ schema.tables.values) (hu : u ∈ schema.tables.values)
    (hname : t.name.toList = u.name.toList) : t = u :=
  h.table_eq ht hu (String.toList_inj.mp hname)

lemma Schema.Distinct.column_of_names (h : schema.Distinct) {c d : TableColumn}
    (hc : schema.Declares c) (hd : schema.Declares d) (htable : c.table.toList = d.table.toList)
    (hname : c.name.toList = d.name.toList) : c = d :=
  h.column_eq hc hd (String.toList_inj.mp htable) (String.toList_inj.mp hname)

lemma Operand.outline_of_side (h : schema.Distinct) {o o' : Operand}
    (ho : ∀ d, o = .column d → schema.Declares d) (ho' : ∀ d, o' = .column d → schema.Declares d)
    (hside : o.side = o'.side) : o.outline = o'.outline := by
  cases o with
  | supply u =>
    cases o' with
    | supply v => exact congrArg supply (Supply.outline_of_side hside)
    | column d => exact absurd hside (u.side_ne_column _ _)
  | column c =>
    cases o' with
    | supply v => exact absurd hside.symm (v.side_ne_column _ _)
    | column d =>
      obtain ⟨htable, hname⟩ := Side.column.inj hside
      exact congrArg column (h.column_of_names (ho c rfl) (ho' d rfl) htable hname)

lemma Comparison.outline_of_atom (h : schema.Distinct) {c d : Comparison}
    (hc : (Predicate.comparison c).Neat schema) (hd : (Predicate.comparison d).Neat schema)
    (hatom : c.atom = d.atom) : c.outline = d.outline := by
  rw [Predicate.Neat] at hc hd
  obtain ⟨htable, hname, hoperator, hright⟩ := Atom.mk.inj hatom
  have hcolumn := h.column_of_names hc.1 hd.1 htable hname
  have hoperand := Operand.outline_of_side h hc.2 hd.2 hright
  rw [outline, outline, hoperand, hcolumn, hoperator]

def Expression.connective? : Expression → Option Connective
  | atom _ => none
  | binary k _ _ => some k

def Expression.operands (k : Connective) : Expression → List Expression
  | atom a => [.atom a]
  | binary k' left right => if k' = k then operands k left ++ [right] else [.binary k' left right]

lemma Expression.operands_of_ne {k : Connective} {e : Expression} (h : e.connective? ≠ some k) :
    e.operands k = [e] := by
  cases e with
  | atom a => rfl
  | binary k' left right => rw [operands, if_neg fun hk => h (congrArg some hk)]

lemma Expression.operands_joined {k : Connective} {e : Expression} (h : e.connective? ≠ some k)
    (es : List Expression) : (joined k e es).operands k = e :: es := by
  induction es using List.reverseRecOn with
  | nil => exact operands_of_ne h
  | append_singleton es f ih =>
    have hjoined : joined k e (es ++ [f]) = binary k (joined k e es) f := by
      simp [joined]
    rw [hjoined, operands, if_pos rfl, ih, List.cons_append]

lemma Expression.connective?_joined (k : Connective) (e : Expression) {es : List Expression}
    (h : es ≠ []) : (joined k e es).connective? = some k := by
  obtain ⟨es, f, rfl⟩ := List.eq_nil_or_concat es |>.resolve_left h
  simp [joined, connective?]

namespace Predicate

lemma memberExpressions_cons_eq_some {p : Predicate} {rest : List Predicate}
    {xs : List Expression} (h : memberExpressions (p :: rest) = some xs) :
    ∃ e es, p.expression = some e ∧ memberExpressions rest = some es ∧ xs = e :: es := by
  rw [memberExpressions] at h
  split at h
  · next e es hp hrest => exact ⟨e, es, hp, hrest, (Option.some.inj h).symm⟩
  · cases h

lemma length_of_memberExpressions {items : List Predicate} {es : List Expression}
    (h : memberExpressions items = some es) : es.length = items.length := by
  induction items generalizing es with
  | nil =>
    rw [memberExpressions] at h
    obtain rfl := Option.some.inj h
    rfl
  | cons p items ih =>
    obtain ⟨e, es, -, hitems, rfl⟩ := memberExpressions_cons_eq_some h
    rw [List.length_cons, ih hitems, List.length_cons]

lemma Neat.expression_group {k : Connective} {items : List Predicate} {x : Expression}
    (hneat : (group k items).Neat schema) (h : (group k items).expression = some x) :
    ∃ e es, es ≠ [] ∧ memberExpressions items = some (e :: es) ∧ x = .joined k e es := by
  rw [Neat] at hneat
  rw [expression] at h
  split at h
  · next e es hitems =>
    have hlength := length_of_memberExpressions hitems
    refine ⟨e, es, ?_, hitems, (Option.some.inj h).symm⟩
    rintro rfl
    have hone : 1 = items.length := hlength
    omega
  · cases h

lemma Neat.connective?_expression {p : Predicate} {x : Expression} (hneat : p.Neat schema)
    (h : p.expression = some x) : x.connective? = p.connective? := by
  cases p with
  | comparison c =>
    rw [expression] at h
    obtain rfl := Option.some.inj h
    rfl
  | group k items =>
    obtain ⟨e, es, hne, -, rfl⟩ := hneat.expression_group h
    exact Expression.connective?_joined k e hne
  | stray v => exact absurd rfl (hneat.not_stray v)

lemma Neat.operands_group {k : Connective} {items : List Predicate} {x : Expression}
    (hneat : (group k items).Neat schema) (h : (group k items).expression = some x) :
    memberExpressions items = some (x.operands k) := by
  obtain ⟨e, es, -, hitems, rfl⟩ := hneat.expression_group h
  rw [Neat] at hneat
  obtain ⟨p, items, rfl⟩ : ∃ p rest, items = p :: rest := by
    cases items with
    | nil => exact absurd hneat.1 (by decide)
    | cons p items => exact ⟨p, items, rfl⟩
  obtain ⟨e', es', hp, -, heq⟩ := memberExpressions_cons_eq_some hitems
  obtain ⟨rfl, rfl⟩ := List.cons.inj heq
  rw [AllNeat] at hneat
  rw [hitems, Expression.operands_joined]
  rw [hneat.2.1.connective?_expression hp]
  exact hneat.2.2.1

mutual

lemma Neat.outline_eq (h : schema.Distinct) {q : Predicate} {x : Expression} :
    (p : Predicate) → p.Neat schema → q.Neat schema → p.expression = some x →
      q.expression = some x → p.outline = q.outline
  | comparison c, hp, hq, hpx, hqx => by
    -- the expression tells a comparison from a group, and the kind of a group
    have hconnective := (hp.connective?_expression hpx).symm.trans (hq.connective?_expression hqx)
    cases q with
    | comparison d =>
      rw [expression] at hpx hqx
      have hatom := Expression.atom.inj (Option.some.inj (hpx.trans hqx.symm))
      rw [outline, outline, Comparison.outline_of_atom h hp hq hatom]
    | group k items => cases hconnective
    | stray v => exact absurd rfl (hq.not_stray v)
  | group k items, hp, hq, hpx, hqx => by
    have hconnective := (hp.connective?_expression hpx).symm.trans (hq.connective?_expression hqx)
    cases q with
    | comparison d => cases hconnective
    | group k' items' =>
      obtain rfl := Option.some.inj hconnective
      have hitems := hp.operands_group hpx
      have hitems' := hq.operands_group hqx
      rw [Neat] at hp hq
      rw [outline, outline, Neat.outlines_eq h items hp.2 hq.2 hitems hitems']
    | stray v => exact absurd rfl (hq.not_stray v)
  | stray v, hp, _, _, _ => absurd rfl (hp.not_stray v)

lemma Neat.outlines_eq (h : schema.Distinct) {k : Connective} {items' : List Predicate}
    {xs : List Expression} :
    (items : List Predicate) → AllNeat schema k items → AllNeat schema k items' →
      memberExpressions items = some xs → memberExpressions items' = some xs →
      outlines items = outlines items'
  | [], _, _, hx, hx' => by
    rw [memberExpressions] at hx
    obtain rfl := Option.some.inj hx
    cases items' with
    | nil => rfl
    | cons q rest =>
      obtain ⟨e, es, -, -, heq⟩ := memberExpressions_cons_eq_some hx'
      cases heq
  | p :: rest, hp, hq, hx, hx' => by
    obtain ⟨e, es, hpe, hrest, rfl⟩ := memberExpressions_cons_eq_some hx
    cases items' with
    | nil =>
      rw [memberExpressions] at hx'
      cases hx'
    | cons q rest' =>
      obtain ⟨e', es', hqe, hrest', heq⟩ := memberExpressions_cons_eq_some hx'
      obtain ⟨rfl, rfl⟩ := List.cons.inj heq
      rw [AllNeat] at hp hq
      rw [outlines, outlines, Neat.outline_eq h p hp.1 hq.1 hpe hqe,
        Neat.outlines_eq h rest hp.2.2 hq.2.2 hrest hrest']

end

lemma Neat.outline_of_tokens (h : schema.Distinct) {p q : Predicate} {s t : Sql}
    (hp : p.Neat schema) (hq : q.Neat schema) (hps : p.sql none = .ok s) (hqs : q.sql none = .ok t)
    (htokens : p.tokens none = q.tokens none) : p.outline = q.outline := by
  obtain ⟨e, hpe, hfits⟩ := hp.fits hps
  obtain ⟨f, hqf, hfits'⟩ := hq.fits hqs
  rw [← htokens] at hfits'
  obtain rfl := hfits.unique hfits'
  exact Neat.outline_eq h p hp hq hpe hqf

end Predicate

end Names

end Tablewright
