import Tablewright.Proofs.Statement.Expression

namespace Tablewright

def Token.Inner (t : Token) : Prop := t.connective? = none ∧ t ≠ .mark '(' ∧ t ≠ .mark ')'

instance (t : Token) : Decidable t.Inner :=
  inferInstanceAs (Decidable (t.connective? = none ∧ t ≠ .mark '(' ∧ t ≠ .mark ')'))

/-- Where an operand of `AND` can end: before a connective or a closing parenthesis, or at the end. -/
def Stops (rest : List Token) : Prop :=
  ∀ t ∈ rest.head?, t = .mark ')' ∨ ∃ k : Connective, t = k.token

def StopsWide (rest : List Token) : Prop := ∀ t ∈ rest.head?, t = .mark ')'

lemma StopsWide.stops {rest : List Token} (h : StopsWide rest) : Stops rest :=
  fun t ht => Or.inl (h t ht)

lemma stops_token (k : Connective) (rest : List Token) : Stops (k.token :: rest) := by
  intro t ht
  exact Or.inr ⟨k, (Option.some.inj ht).symm⟩

@[simp] lemma connective?_token (k : Connective) : k.token.connective? = some k := by
  cases k <;> rfl

attribute [local simp] parse

lemma parse_token (outer : List Level) (l : Level) (e : Expression) (k : Connective)
    (rest : List Token) :
    parse outer l (.closed e) (k.token :: rest) =
      parse outer (l.after e k) (.reading []) rest := by
  simp [Current.expression?]

lemma parse_opening (outer : List Level) (l : Level) (rest : List Token) :
    parse outer l (.reading []) (.mark '(' :: rest) = parse (l :: outer) {} (.reading []) rest := by
  simp [Token.connective?]

lemma parse_closing (outer : List Level) (l l' : Level) (e : Expression) (rest : List Token) :
    parse (l' :: outer) l (.closed e) (.mark ')' :: rest) =
      parse outer l' (.closed (l.close e)) rest := by
  simp [Token.connective?, Current.expression?]

lemma parse_inner {ts : List Token} (h : ∀ t ∈ ts, t.Inner) (outer : List Level) (l : Level)
    (read rest : List Token) :
    parse outer l (.reading read) (ts ++ rest) =
      parse outer l (.reading (ts.reverse ++ read)) rest := by
  induction ts generalizing read with
  | nil => rfl
  | cons t ts ih =>
    obtain ⟨hconnective, hopening, hclosing⟩ := h t List.mem_cons_self
    have hrest := ih (fun u hu => h u (List.mem_cons_of_mem _ hu)) (t :: read)
    simp [hconnective, hopening, hclosing, hrest]

lemma parse_expression {now : Current} {e : Expression} (h : now.expression? = some e)
    {rest : List Token} (hrest : Stops rest) (outer : List Level) (l : Level) :
    parse outer l now rest = parse outer l (.closed e) rest := by
  have hclosed : (Current.closed e).expression? = some e := rfl
  cases rest with
  | nil => rw [parse, parse, h, hclosed]
  | cons t rest =>
    rcases hrest t rfl with rfl | ⟨k, rfl⟩
    · cases outer with
      | nil => simp [Token.connective?]
      | cons l' outer => simp [Token.connective?, h, hclosed]
    · simp [h, hclosed]

lemma parse_conjoin {rest : List Token} (hrest : Stops rest) (outer : List Level)
    (d c : Option Expression) (e : Expression) :
    parse outer ⟨d, c⟩ (.closed e) rest =
      parse outer ⟨d, none⟩ (.closed (Level.conjoin ⟨d, c⟩ e)) rest := by
  have hclose : Level.close ⟨d, c⟩ e = Level.close ⟨d, none⟩ (Level.conjoin ⟨d, c⟩ e) := by
    cases d <;> rfl
  cases rest with
  | nil => simp only [parse, Current.expression?, Option.map_some, hclose]
  | cons t rest =>
    rcases hrest t rfl with rfl | ⟨k, rfl⟩
    · cases outer with
      | nil => simp [Token.connective?]
      | cons l' outer => rw [parse_closing, parse_closing, hclose]
    · rw [parse_token, parse_token]
      cases k with
      | and => rfl
      | or => rw [Level.after, Level.after, hclose]

lemma parse_close {rest : List Token} (hrest : StopsWide rest) (outer : List Level) (l : Level)
    (e : Expression) :
    parse outer l (.closed e) rest = parse outer {} (.closed (l.close e)) rest := by
  have hclose : ∀ f, Level.close {} f = f := fun f => rfl
  cases rest with
  | nil => simp only [parse, Current.expression?, Option.map_some, hclose]
  | cons t rest =>
    obtain rfl := hrest t rfl
    cases outer with
    | nil => simp [Token.connective?]
    | cons l' outer => rw [parse_closing, parse_closing, hclose]

def Fits : Option Connective → List Token → Expression → Prop
  | some .and, ts, e => ∀ outer l rest, Stops rest →
    parse outer l (.reading []) (ts ++ rest) = parse outer l (.closed e) rest
  | some .or, ts, e => ∀ outer d rest, Stops rest →
    parse outer ⟨d, none⟩ (.reading []) (ts ++ rest) = parse outer ⟨d, none⟩ (.closed e) rest
  | none, ts, e => ∀ outer rest, StopsWide rest →
    parse outer {} (.reading []) (ts ++ rest) = parse outer {} (.closed e) rest

namespace Fits

variable {ts : List Token} {e : Expression}

lemma to_or (h : Fits (some .and) ts e) : Fits (some .or) ts e := by
  intro outer d rest hrest
  exact h outer ⟨d, none⟩ rest hrest

lemma to_none (h : Fits (some .or) ts e) : Fits none ts e := by
  intro outer rest hrest
  exact h outer none rest hrest.stops

lemma of_and (h : Fits (some .and) ts e) (within : Option Connective) : Fits within ts e :=
  match within with
  | some .and => h
  | some .or => h.to_or
  | none => h.to_or.to_none

lemma comparison {a : Atom} (hc : comparison? ts = some a) (h : ∀ t ∈ ts, t.Inner) :
    Fits (some .and) ts (.atom a) := by
  intro outer l rest hrest
  have hread : (Current.reading ts.reverse).expression? = some (.atom a) := by
    simp [Current.expression?, hc]
  rw [parse_inner h, List.append_nil, parse_expression hread hrest]

lemma parenthesized (h : Fits none ts e) :
    Fits (some .and) (.mark '(' :: ts ++ [.mark ')']) e := by
  intro outer l rest hrest
  have hclosing : StopsWide (.mark ')' :: rest) := by
    intro t ht
    exact (Option.some.inj ht).symm
  rw [List.append_assoc, List.cons_append, parse_opening, List.singleton_append,
    h (l :: outer) (.mark ')' :: rest) hclosing, parse_closing]
  rfl

end Fits

def joinTokens (k : Connective) (ts : List Token) (tss : List (List Token)) : List Token :=
  ts ++ tss.flatMap fun us => k.token :: us

lemma parse_conjunction {tss : List (List Token)} {es : List Expression}
    (h : List.Forall₂ (Fits (some .and)) tss es) {ts : List Token} {e : Expression}
    (he : Fits (some .and) ts e) (outer : List Level) (d c : Option Expression)
    {rest : List Token} (hrest : Stops rest) :
    parse outer ⟨d, c⟩ (.reading []) (joinTokens .and ts tss ++ rest) =
      parse outer ⟨d, none⟩ (.closed (.joined .and (Level.conjoin ⟨d, c⟩ e) es)) rest := by
  induction h generalizing ts e c with
  | nil =>
    rw [joinTokens, List.flatMap_nil, List.append_nil, he outer ⟨d, c⟩ rest hrest,
      parse_conjoin hrest]
    rfl
  | @cons us f tss es hf _ ih =>
    have htokens : joinTokens .and ts (us :: tss) ++ rest =
        ts ++ Connective.and.token :: (joinTokens .and us tss ++ rest) := by
      simp [joinTokens]
    -- the operands so far are in the level now, and the next one is the first that follows it
    rw [htokens, he outer ⟨d, c⟩ _ (stops_token .and _), parse_token]
    exact ih hf (some (Level.conjoin ⟨d, c⟩ e))

lemma parse_disjunction {tss : List (List Token)} {es : List Expression}
    (h : List.Forall₂ (Fits (some .or)) tss es) {ts : List Token} {e : Expression}
    (he : Fits (some .or) ts e) (outer : List Level) (d : Option Expression)
    {rest : List Token} (hrest : StopsWide rest) :
    parse outer ⟨d, none⟩ (.reading []) (joinTokens .or ts tss ++ rest) =
      parse outer {} (.closed (.joined .or (Level.close ⟨d, none⟩ e) es)) rest := by
  induction h generalizing ts e d with
  | nil =>
    rw [joinTokens, List.flatMap_nil, List.append_nil, he outer d rest hrest.stops,
      parse_close hrest]
    rfl
  | @cons us f tss es hf _ ih =>
    have htokens : joinTokens .or ts (us :: tss) ++ rest =
        ts ++ Connective.or.token :: (joinTokens .or us tss ++ rest) := by
      simp [joinTokens]
    rw [htokens, he outer d _ (stops_token .or _), parse_token]
    exact ih hf (some (Level.close ⟨d, none⟩ e))

lemma Fits.conjunction {tss : List (List Token)} {es : List Expression}
    (h : List.Forall₂ (Fits (some .and)) tss es) {ts : List Token} {e : Expression}
    (he : Fits (some .and) ts e) : Fits (some .or) (joinTokens .and ts tss) (.joined .and e es) := by
  intro outer d rest hrest
  exact parse_conjunction h he outer d none hrest

lemma Fits.disjunction {tss : List (List Token)} {es : List Expression}
    (h : List.Forall₂ (Fits (some .or)) tss es) {ts : List Token} {e : Expression}
    (he : Fits (some .or) ts e) : Fits none (joinTokens .or ts tss) (.joined .or e es) := by
  intro outer rest hrest
  exact parse_disjunction h he outer none hrest

lemma readExpression_of_fits {sql : String} {ts : List Token} {e : Expression}
    (ht : tokens sql = ts) (h : Fits none ts e) : readExpression sql = some e := by
  have hend : StopsWide [] := by
    intro t ht
    cases ht
  have hread := h [] [] hend
  rw [List.append_nil] at hread
  rw [readExpression, ht, hread]
  rfl

end Tablewright
