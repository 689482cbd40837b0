import Tablewright.Proofs.Statement.Pieces
import Tablewright.Proofs.Statement.Precedence

namespace Tablewright

def Operand.Writable : Operand → Prop
  | .supply (.literal v) => ∃ text, v.literal = .ok text
  | _ => True

inductive Operand.ReadAs : Operand → Side → Prop
  | param (p : Param) : ReadAs (.supply (.param p)) .hole
  | literal {v : Value} {text : String} : v.literal = .ok text →
      ReadAs (.supply (.literal v)) (.literal (tokens text))
  | column (c : TableColumn) : ReadAs (.column c) (.column c.table.toList c.name.toList)

structure Comparison.ReadAs (c : Comparison) (a : Atom) : Prop where
  table : a.table = c.column.table.toList
  name : a.name = c.column.name.toList
  operator : a.operator = c.operator
  right : c.operand.ReadAs a.right

structure Side.Legible (s : Side) : Prop where
  side : side? s.tokens = some s
  inner : ∀ t ∈ s.tokens, t.Inner
  head : ∀ t ∈ s.tokens.head?, t ≠ .word ['N', 'O', 'T']

lemma operator?_tokens (o : Operator) {ts : List Token}
    (h : ∀ t ∈ ts.head?, t ≠ .word ['N', 'O', 'T']) : operator? (o.tokens ++ ts) = some (o, ts) := by
  cases o with
  | is =>
    cases ts with
    | nil => rfl
    | cons t ts =>
      have ht : (Token.word ['N', 'O', 'T'] == t) = false := by
        rw [beq_eq_false_iff_ne]
        exact (h t rfl).symm
      simp [operator?, Operator.tokens, List.isPrefixOf?, ht]
  | eq | ne | lt | le | gt | ge | like | isNot =>
    simp [operator?, Operator.tokens, List.isPrefixOf?]

lemma Operator.inner_tokens (o : Operator) : ∀ t ∈ o.tokens, t.Inner := by
  cases o <;> decide

lemma Atom.comparison?_tokens {a : Atom} (h : a.right.Legible) : comparison? a.tokens = some a := by
  simp [Atom.tokens, comparison?, operator?_tokens a.operator h.head, h.side]

lemma Atom.forall_tokens {p : Token → Prop} {a : Atom} (hname : ∀ n, p (.name n))
    (hdot : p (.mark '.')) (hoperator : ∀ t ∈ a.operator.tokens, p t)
    (hright : ∀ t ∈ a.right.tokens, p t) : ∀ t ∈ a.tokens, p t := by
  rw [Atom.tokens]
  refine List.forall_mem_append.mpr ⟨List.forall_mem_append.mpr ⟨?_, hoperator⟩, hright⟩
  simp [hname, hdot]

lemma Atom.inner_tokens {a : Atom} (h : a.right.Legible) : ∀ t ∈ a.tokens, t.Inner :=
  forall_tokens (by simp [Token.Inner, Token.connective?]) (by simp [Token.Inner, Token.connective?])
    a.operator.inner_tokens h.inner

lemma reads_null : Reads "NULL".toList [.word ['N', 'U', 'L', 'L']] := by
  intro rest hrest
  have htext : "NULL".toList = ['N', 'U', 'L', 'L'] := by decide
  rw [htext]
  exact tokensFrom_of_ends (m := .word ['L', 'L', 'U', 'N']) hrest rfl rfl rfl

lemma LiteralText.reads {cs : List Char} (h : LiteralText cs) :
    ∃ ts, Reads cs ts ∧ (Side.literal ts).Legible := by
  have hlegible : ∀ {ts}, side? ts = some (.literal ts) → (∀ t ∈ ts, t.Inner) →
      (∀ t ∈ ts.head?, t ≠ .word ['N', 'O', 'T']) → (Side.literal ts).Legible :=
    fun hside hinner hhead => ⟨hside, hinner, hhead⟩
  cases h with
  | null => exact ⟨_, reads_null, hlegible rfl (by decide) (by decide)⟩
  | number hn =>
    exact ⟨_, hn.reads, hlegible rfl (by simp [Token.Inner, Token.connective?]) (by simp)⟩
  | negative hn =>
    exact ⟨_, hn.reads_negative, hlegible rfl (by simp [Token.Inner, Token.connective?]) (by simp)⟩
  | text t =>
    exact ⟨_, reads_text t, hlegible rfl (by simp [Token.Inner, Token.connective?]) (by simp)⟩
  | blob hx he =>
    exact ⟨_, reads_blob hx he, hlegible rfl (by simp [Token.Inner, Token.connective?]) (by simp)⟩

lemma tokensFrom_quoteIdentifier (n : String) {rest : List Char} (h : rest.head? ≠ some '"') :
    tokensFrom .ready ((quoteIdentifier n).toList ++ rest) =
      .name n.toList :: tokensFrom .ready rest := by
  rw [quoteIdentifier, Text.enclose, String.toList_ofList, List.append_assoc]
  exact tokensFrom_name n.toList h

lemma TableColumn.reads (c : TableColumn) :
    Reads c.sql.text.toList [.name c.table.toList, .mark '.', .name c.name.toList] := by
  intro rest hrest
  have hend : rest.head? ≠ some '"' := hrest.head?_ne (Or.inl rfl)
  have htext : c.sql.text.toList ++ rest =
      (quoteIdentifier c.table).toList ++ '.' :: ((quoteIdentifier c.name).toList ++ rest) := by
    simp [TableColumn.sql, Sql.text, Piece.text]
  have hpoint : ∀ cs, tokensFrom .ready ('.' :: cs) = .mark '.' :: tokensFrom .ready cs :=
    fun cs => rfl
  rw [htext, tokensFrom_quoteIdentifier c.table (by simp), hpoint,
    tokensFrom_quoteIdentifier c.name hend]
  rfl

lemma Operand.reads {o : Operand} (h : o.Writable) :
    ∃ s side, o.sql = .ok s ∧ o.ReadAs side ∧ side.Legible ∧ Reads s.text.toList side.tokens := by
  match o with
  | .supply (.param p) =>
    have htext : (Sql.text [.hole p]).toList = ['?'] := by simp [Sql.text, Piece.text]
    refine ⟨[.hole p], .hole, rfl, .param p, ⟨rfl, by decide, by decide⟩, ?_⟩
    rw [htext]
    exact reads_hole
  | .supply (.literal v) =>
    obtain ⟨text, htext⟩ := h
    obtain ⟨ts, hreads, hlegible⟩ := (literalText_of_literal htext).reads
    obtain rfl : tokens text = ts := hreads.tokensFrom_eq
    have hsql : (Supply.literal v).sql = .ok [.literal text] :=
      Supply.sql_eq_ok_iff.mpr ⟨text, htext, rfl⟩
    refine ⟨[.literal text], .literal (tokens text), hsql, .literal htext, hlegible, ?_⟩
    have hpiece : (Sql.text [.literal text]).toList = text.toList := by simp [Sql.text, Piece.text]
    rw [hpiece]
    exact hreads
  | .column c =>
    refine ⟨c.sql, .column c.table.toList c.name.toList, rfl, .column c, ⟨rfl, ?_, ?_⟩, c.reads⟩
    · simp [Side.tokens, Token.Inner, Token.connective?]
    · simp [Side.tokens]

lemma Operator.tokensFrom_text (o : Operator) (rest : List Char) :
    tokensFrom .ready ((" " ++ o.text ++ " ").toList ++ rest) =
      o.tokens ++ tokensFrom .ready rest := by
  cases o <;> simp [Operator.text] <;> rfl

lemma Operator.ends_text (o : Operator) (rest : List Char) :
    Ends ((" " ++ o.text ++ " ").toList ++ rest) := by
  have htext : (" " ++ o.text ++ " ").toList ++ rest = ' ' :: (o.text.toList ++ ' ' :: rest) := by
    simp
  rw [htext]
  exact ends_blank _

lemma Comparison.reads {c : Comparison} (h : c.operand.Writable) :
    ∃ s a, c.sql = .ok s ∧ c.ReadAs a ∧ Reads s.text.toList a.tokens ∧
      Fits (some .and) a.tokens (.atom a) := by
  obtain ⟨operand, side, hoperand, hread, hlegible, hreads⟩ := Operand.reads h
  let a : Atom := ⟨c.column.table.toList, c.column.name.toList, c.operator, side⟩
  refine ⟨_, a, map_eq_ok_iff.mpr ⟨operand, hoperand, rfl⟩, ⟨rfl, rfl, rfl, hread⟩, ?_,
    .comparison (Atom.comparison?_tokens hlegible) (Atom.inner_tokens hlegible)⟩
  intro rest hrest
  rw [Sql.toList_text_append, Sql.toList_text_cons, Piece.text, List.append_assoc,
    List.append_assoc, c.column.reads _ (c.operator.ends_text _), c.operator.tokensFrom_text,
    hreads rest hrest]
  simp [a, Atom.tokens]

end Tablewright
