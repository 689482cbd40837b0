import Tablewright.Proofs.Statement.Comparison
import Tablewright.Proofs.Statement.Slots

namespace Tablewright

namespace Predicate

mutual

/-- A condition with something in each of its groups, whose literals can be written. -/
def Writable : Predicate → Prop
  | comparison c => c.operand.Writable
  | group _ items => items ≠ [] ∧ AllWritable items
  | stray _ => False

def AllWritable : List Predicate → Prop
  | [] => True
  | p :: rest => p.Writable ∧ AllWritable rest

end

mutual

def comparisons : Predicate → List Comparison
  | comparison c => [c]
  | group _ items => comparisonsOf items
  | stray _ => []

def comparisonsOf : List Predicate → List Comparison
  | [] => []
  | p :: rest => p.comparisons ++ comparisonsOf rest

end

mutual

/-- The truth of a condition when its `n`-th comparison has the truth `v n`. -/
def value (v : Nat → Truth) : Predicate → Truth
  | comparison _ => v 0
  | group k items => valueOf k v items
  | stray _ => .unknown

def valueOf (k : Connective) (v : Nat → Truth) : List Predicate → Truth
  | [] => k.unit
  | p :: rest => k.join (p.value v) (valueOf k (fun n => v (p.comparisons.length + n)) rest)

end

end Predicate

structure Rendering (within : Option Connective) where
  sql : Sql
  tokens : List Token
  expression : Expression
  reads : Reads sql.text.toList tokens
  fits : Fits within tokens expression

namespace Rendering

lemma tokensFrom_keyword (k : Connective) (rest : List Char) :
    tokensFrom .ready (k.keyword.toList ++ rest) = k.token :: tokensFrom .ready rest := by
  cases k <;> simp [Connective.keyword, Connective.name] <;> rfl

lemma ends_keyword (k : Connective) (rest : List Char) : Ends (k.keyword.toList ++ rest) := by
  cases k <;> simp [Connective.keyword, Connective.name] <;> exact ends_blank _

def joinedSql {k : Connective} (r : Rendering (some k)) (rs : List (Rendering (some k))) : Sql :=
  Sql.separated k.keyword ((r :: rs).map (·.sql))

lemma reads_joinedSql {k : Connective} (r : Rendering (some k)) (rs : List (Rendering (some k))) :
    Reads (joinedSql r rs).text.toList (joinTokens k r.tokens (rs.map (·.tokens))) := by
  induction rs generalizing r with
  | nil =>
    rw [joinedSql, List.map_singleton, Sql.separated_singleton, joinTokens, List.map_nil, List.flatMap_nil,
      List.append_nil]
    exact r.reads
  | cons r' rs ih =>
    intro rest hrest
    have hrest' := ih r' rest hrest
    rw [joinedSql, List.map_cons] at hrest'
    rw [joinedSql, List.map_cons, List.map_cons, Sql.separated_cons_cons, Sql.toList_text_append,
      Sql.toList_text_cons, Piece.text, List.append_assoc, List.append_assoc,
      r.reads _ (ends_keyword k _), tokensFrom_keyword, hrest']
    simp [joinTokens]

lemma forall₂_fits {k : Connective} (rs : List (Rendering (some k))) :
    List.Forall₂ (Fits (some k)) (rs.map (·.tokens)) (rs.map (·.expression)) := by
  induction rs with
  | nil => exact .nil
  | cons r rs ih => exact .cons r.fits ih

def conjunction (r : Rendering (some .and)) (rs : List (Rendering (some .and))) :
    Rendering (some .or) where
  sql := joinedSql r rs
  tokens := joinTokens .and r.tokens (rs.map (·.tokens))
  expression := .joined .and r.expression (rs.map (·.expression))
  reads := reads_joinedSql r rs
  fits := .conjunction (forall₂_fits rs) r.fits

def disjunction (r : Rendering (some .or)) (rs : List (Rendering (some .or))) : Rendering none where
  sql := joinedSql r rs
  tokens := joinTokens .or r.tokens (rs.map (·.tokens))
  expression := .joined .or r.expression (rs.map (·.expression))
  reads := reads_joinedSql r rs
  fits := .disjunction (forall₂_fits rs) r.fits

def unembraced (r : Rendering (some .or)) : Rendering none := { r with fits := r.fits.to_none }

def embraced (r : Rendering none) : Rendering (some .and) where
  sql := .word "(" :: r.sql ++ [.word ")"]
  tokens := .mark '(' :: r.tokens ++ [.mark ')']
  expression := r.expression
  reads := by
    intro rest _
    have htext : (Sql.text (.word "(" :: r.sql ++ [.word ")"])).toList ++ rest =
        '(' :: (r.sql.text.toList ++ ')' :: rest) := by
      rw [Sql.toList_text_append, Sql.toList_text_cons]
      simp [Sql.text, Piece.text]
    have hopening : ∀ cs, tokensFrom .ready ('(' :: cs) = .mark '(' :: tokensFrom .ready cs :=
      fun cs => rfl
    rw [htext, hopening, r.reads _ (ends_closing rest)]
    simp [tokensFrom, Reading.next, Reading.start, Reading.startsWord]
  fits := r.fits.parenthesized

end Rendering

structure Predicate.MeansSame (p : Predicate) (e : Expression) : Prop where
  comparisons : List.Forall₂ Comparison.ReadAs p.comparisons e.atoms
  value (v : Nat → Truth) : e.value v = p.value v

structure Predicate.MeanSame (k : Connective) (items : List Predicate) (es : List Expression) :
    Prop where
  comparisons : List.Forall₂ Comparison.ReadAs (comparisonsOf items) (es.flatMap (·.atoms))
  value (v : Nat → Truth) : Expression.valueAll k v es = valueOf k v items

namespace Predicate

def embraceTokens (within : Option Connective) (k : Connective) (ts : List Token) : List Token :=
  if k = .or && within = some .and then .mark '(' :: ts ++ [.mark ')'] else ts

lemma exists_rendering_joined {within : Option Connective} {k : Connective} (hk : within ≠ some k)
    (r : Rendering (some k)) (rs : List (Rendering (some k))) :
    ∃ g : Rendering within, g.sql = embrace within k (Rendering.joinedSql r rs) ∧
      g.tokens = embraceTokens within k (joinTokens k r.tokens (rs.map (·.tokens))) ∧
      g.expression = .joined k r.expression (rs.map (·.expression)) := by
  cases k with
  | and =>
    rcases within with _ | _ | _
    · exact ⟨(Rendering.conjunction r rs).unembraced, rfl, rfl, rfl⟩
    · exact absurd rfl hk
    · exact ⟨.conjunction r rs, rfl, rfl, rfl⟩
  | or =>
    rcases within with _ | _ | _
    · exact ⟨.disjunction r rs, rfl, rfl, rfl⟩
    · exact ⟨(Rendering.disjunction r rs).embraced, rfl, rfl, rfl⟩
    · exact absurd rfl hk

lemma rendering_group {k : Connective} {items : List Predicate} {rs : List (Rendering (some k))}
    (hsql : memberSql k items = .ok (rs.map (·.sql)))
    (hmeans : MeanSame k items (rs.map (·.expression))) (hne : rs ≠ [])
    {within : Option Connective} (hk : within ≠ some k) :
    ∃ r : Rendering within, (group k items).sql within = .ok r.sql ∧
      (group k items).MeansSame r.expression := by
  obtain ⟨r, rs, rfl⟩ := List.exists_cons_of_ne_nil hne
  have hgroup : (group k items).sql within =
      .ok (embrace within k (Rendering.joinedSql r rs)) := by
    rw [sql, hsql]
    rfl
  have hsame : (group k items).MeansSame (.joined k r.expression (rs.map (·.expression))) := by
    constructor
    · rw [Expression.atoms_joined, Predicate.comparisons]
      exact hmeans.comparisons
    · intro v
      rw [Expression.value_joined, value]
      exact hmeans.value v
  obtain ⟨g, hg, -, hexpression⟩ := exists_rendering_joined hk r rs
  exact ⟨g, hg ▸ hgroup, hexpression ▸ hsame⟩

lemma rendering_comparison {c : Comparison} (h : c.operand.Writable) (within : Option Connective) :
    ∃ r : Rendering within, (comparison c).sql within = .ok r.sql ∧
      (comparison c).MeansSame r.expression := by
  obtain ⟨s, a, hsql, hread, hreads, hfits⟩ := Comparison.reads h
  have hcomparison : (comparison c).sql within = .ok s := by
    rw [sql, hsql]
  refine ⟨⟨s, a.tokens, .atom a, hreads, hfits.of_and within⟩, hcomparison, ?_, fun v => ?_⟩
  · rw [comparisons]
    exact .cons hread .nil
  · rw [value]
    rfl

lemma memberSql_cons {k : Connective} {p : Predicate} {rest : List Predicate} {here : Sql}
    {others : List Sql} (hp : ∀ items, p ≠ group k items) (hhere : p.sql (some k) = .ok here)
    (hothers : memberSql k rest = .ok others) : memberSql k (p :: rest) = .ok (here :: others) := by
  cases p with
  | comparison c =>
    rw [sql] at hhere
    rw [memberSql, hhere, hothers]
    rfl
  | group k' items =>
    have hne : k' ≠ k := by
      rintro rfl
      exact hp items rfl
    rw [memberSql, if_neg hne, hhere, hothers]
    rfl
  | stray v =>
    rw [sql] at hhere
    cases hhere

lemma MeanSame.cons {k : Connective} {p : Predicate} {rest : List Predicate} {e : Expression}
    {es : List Expression} (hp : p.MeansSame e) (hrest : MeanSame k rest es) :
    MeanSame k (p :: rest) (e :: es) := by
  constructor
  · rw [comparisonsOf, List.flatMap_cons]
    exact List.rel_append hp.comparisons hrest.comparisons
  · intro v
    rw [Expression.valueAll, valueOf, hp.value, hrest.value, hp.comparisons.length_eq]

lemma MeanSame.append {k : Connective} {items rest : List Predicate} {es fs : List Expression}
    (hitems : MeanSame k items es) (hrest : MeanSame k rest fs) :
    MeanSame k (group k items :: rest) (es ++ fs) := by
  constructor
  · rw [comparisonsOf, Predicate.comparisons, List.flatMap_append]
    exact List.rel_append hitems.comparisons hrest.comparisons
  · intro v
    rw [Expression.valueAll_append, valueOf, Predicate.value, Predicate.comparisons, hitems.value, hrest.value,
      hitems.comparisons.length_eq]

mutual

lemma rendering (within : Option Connective) :
    (p : Predicate) → p.Writable → (∀ k items, p = group k items → within ≠ some k) →
      ∃ r : Rendering within, p.sql within = .ok r.sql ∧ p.MeansSame r.expression
  | comparison c, h, _ => by
    rw [Writable] at h
    exact rendering_comparison h within
  | group k items, h, hk => by
    rw [Writable] at h
    obtain ⟨rs, hsql, hmeans, hne⟩ := renderings k items h.2
    exact rendering_group hsql hmeans (hne h.1) (hk k items rfl)
  | stray _, h, _ => by
    rw [Writable] at h
    exact h.elim

lemma renderings (k : Connective) :
    (items : List Predicate) → AllWritable items →
      ∃ rs : List (Rendering (some k)), memberSql k items = .ok (rs.map (·.sql)) ∧
        MeanSame k items (rs.map (·.expression)) ∧ (items ≠ [] → rs ≠ [])
  | [], _ => by
    refine ⟨[], by rw [memberSql]; rfl, ⟨?_, fun v => ?_⟩, fun h => absurd rfl h⟩
    · rw [comparisonsOf]
      exact .nil
    · rw [valueOf]
      rfl
  | comparison c :: rest, h => by
    rw [AllWritable, Writable] at h
    obtain ⟨r, hr, hmean⟩ := rendering_comparison h.1 (some k)
    obtain ⟨rs, hrs, hmeans, -⟩ := renderings k rest h.2
    refine ⟨r :: rs, memberSql_cons (fun _ => Predicate.noConfusion) hr hrs, MeanSame.cons hmean hmeans, ?_⟩
    exact fun _ => List.cons_ne_nil r rs
  | group k' items :: rest, h => by
    rw [AllWritable] at h
    obtain ⟨rs, hrs, hmeans, -⟩ := renderings k rest h.2
    by_cases hk : k' = k
    · -- members of a group of the same kind stand among those of the group around it
      subst hk
      have hgroup := h.1
      rw [Writable] at hgroup
      obtain ⟨rs', hrs', hmeans', hne⟩ := renderings k' items hgroup.2
      refine ⟨rs' ++ rs, ?_, ?_, fun _ => List.append_ne_nil_of_left_ne_nil (hne hgroup.1) rs⟩
      · rw [memberSql, if_pos rfl, hrs', hrs, List.map_append]
        rfl
      · rw [List.map_append]
        exact hmeans'.append hmeans
    · -- a group of the other kind is one operand, in parentheses if it needs them
      have hother : ∀ k₀ items₀, group k' items = group k₀ items₀ → some k ≠ some k₀ := by
        rintro k₀ items₀ heq hsome
        injection heq with hk₀
        injection hsome with hsome
        exact hk (hk₀.trans hsome.symm)
      obtain ⟨r, hr, hmean⟩ := rendering (some k) (group k' items) h.1 hother
      have hmember : ∀ items₀, group k' items ≠ group k items₀ := by
        intro items₀ heq
        injection heq with hk₀
        exact hk hk₀
      refine ⟨r :: rs, memberSql_cons hmember hr hrs, MeanSame.cons hmean hmeans, ?_⟩
      exact fun _ => List.cons_ne_nil r rs
  | stray _ :: _, h => by
    rw [AllWritable, Writable] at h
    exact h.1.elim

end

mutual

lemma params_eq : (p : Predicate) → p.params = p.comparisons.flatMap (·.operand.params)
  | comparison c => by
    rw [params, comparisons, List.flatMap_singleton]
  | group _ items => by
    rw [params, comparisons, paramsOf_eq items]
  | stray _ => by
    rw [params, comparisons, List.flatMap_nil]

lemma paramsOf_eq :
    (items : List Predicate) → paramsOf items = (comparisonsOf items).flatMap (·.operand.params)
  | [] => by
    rw [paramsOf, comparisonsOf, List.flatMap_nil]
  | p :: rest => by
    rw [paramsOf, comparisonsOf, List.flatMap_append, params_eq p, paramsOf_eq rest]

end

/-- The placeholder of a comparison that was read stands for the parameter of one that was written. -/
def StandsFor (cs : List Comparison) (a : Atom) (q : Param) : Prop :=
  ∃ c ∈ cs, c.ReadAs a ∧ c.operand = .supply (.param q)

lemma holes_of_readAs {cs : List Comparison} {as : List Atom}
    (h : List.Forall₂ Comparison.ReadAs cs as) :
    List.Forall₂ (StandsFor cs) (as.filter (·.right = .hole))
      (cs.flatMap (·.operand.params)) := by
  induction h with
  | nil => exact .nil
  | @cons c a cs as hca _ ih =>
    have hrest : List.Forall₂ (StandsFor (c :: cs)) (as.filter (·.right = .hole))
        (cs.flatMap (·.operand.params)) := by
      refine ih.imp ?_
      rintro b q ⟨d, hd, hread⟩
      exact ⟨d, List.mem_cons_of_mem c hd, hread⟩
    obtain ⟨column, operator, operand⟩ := c
    obtain ⟨table, name, operator', right⟩ := a
    cases hca.right with
    | param q => exact .cons ⟨_, List.mem_cons_self, hca, rfl⟩ hrest
    | literal _ => exact hrest
    | column _ => exact hrest

/-- The text of a condition reads as an expression that means the same. Its placeholders are, in
their order, the parameters of its operands. -/
theorem reads_as_written {p : Predicate} (h : p.Writable) :
    ∃ s e, p.sql none = .ok s ∧ readExpression s.text = some e ∧
      List.Forall₂ Comparison.ReadAs p.comparisons e.atoms ∧
      s.params = p.comparisons.flatMap (·.operand.params) ∧
      List.Forall₂ (StandsFor p.comparisons) (e.atoms.filter (·.right = .hole)) s.params ∧
      ∀ v, e.value v = p.value v := by
  obtain ⟨r, hsql, hmeans⟩ := rendering none p h (by simp)
  have hread : readExpression r.sql.text = some r.expression :=
    readExpression_of_fits r.reads.tokensFrom_eq r.fits
  have hparams : r.sql.params = p.comparisons.flatMap (·.operand.params) := by
    rw [(renders p hsql).params_eq, params_eq]
  refine ⟨r.sql, r.expression, hsql, hread, hmeans.comparisons, hparams, ?_, hmeans.value⟩
  rw [hparams]
  exact holes_of_readAs hmeans.comparisons

namespace Nested

def column (name : String) : TableColumn := ⟨"a \"table\"", { name, kind := .text }⟩

def condition : Predicate :=
  .group .or
    [.group .and
      [.group .or
        [.comparison ⟨column "OR", .ne, .supply (.param { name := some "first" })⟩,
          .comparison ⟨column "it's?", .like, .supply (.literal (.text "' AND ?"))⟩]],
      .group .and
        [.group .or [.comparison ⟨column "n", .gt, .supply (.literal (.int (-3)))⟩],
          .comparison ⟨column "n", .isNot, .supply (.literal .null)⟩,
          .comparison ⟨column "m", .le, .supply (.param { value := some (.int 7) })⟩]]

lemma writable_condition : condition.Writable := by
  simp [condition, Writable, AllWritable, Operand.Writable, Value.literal]

end Nested

theorem reads_as_written_nested :
    Nested.condition.Writable ∧
      ∃ s e, Nested.condition.sql none = .ok s ∧ readExpression s.text = some e ∧
        List.Forall₂ Comparison.ReadAs Nested.condition.comparisons e.atoms ∧
        s.params = Nested.condition.comparisons.flatMap (·.operand.params) ∧
        List.Forall₂ (StandsFor Nested.condition.comparisons)
          (e.atoms.filter (·.right = .hole)) s.params ∧
        ∀ v, e.value v = Nested.condition.value v :=
  ⟨Nested.writable_condition, reads_as_written Nested.writable_condition⟩

end Predicate

end Tablewright
