import Tablewright.Proofs.Statement.Literal
import Tablewright.Proofs.Statement.Pieces
import Tablewright.Statement.Compiled

namespace Tablewright

inductive Quoting where
  | outside
  | inside (quote : Char)
deriving DecidableEq

/-- A doubled quote character closes the quotes and opens them again at once. -/
def Quoting.next : Quoting → Char → Quoting
  | outside, c => if c = '"' ∨ c = '\'' then inside c else outside
  | inside quote, c => if c = quote then outside else inside quote

def placeholdersFrom (m : Quoting) (place : Nat) : List Char → List Nat
  | [] => []
  | c :: rest =>
    if m = .outside ∧ c = '?' then place :: placeholdersFrom (m.next c) (place + 1) rest
    else placeholdersFrom (m.next c) (place + 1) rest

def placeholders (sql : String) : List Nat := placeholdersFrom .outside 0 sql.toList

/-- A text without placeholders that closes the quotes it opens. -/
def Sealed (cs : List Char) : Prop :=
  ∀ place rest, placeholdersFrom .outside place (cs ++ rest) =
    placeholdersFrom .outside (place + cs.length) rest

lemma Sealed.append {cs ds : List Char} (hc : Sealed cs) (hd : Sealed ds) : Sealed (cs ++ ds) := by
  intro place rest
  rw [List.append_assoc, hc, hd, List.length_append, Nat.add_assoc]

def Plain (cs : List Char) : Prop := ∀ c ∈ cs, c ≠ '"' ∧ c ≠ '\'' ∧ c ≠ '?'

instance (cs : List Char) : Decidable (Plain cs) :=
  List.decidableBAll (fun c => c ≠ '"' ∧ c ≠ '\'' ∧ c ≠ '?') cs

lemma Plain.sealed {cs : List Char} (h : Plain cs) : Sealed cs := by
  intro place rest
  induction cs generalizing place with
  | nil => rfl
  | cons c cs ih =>
    obtain ⟨hd, hs, hq⟩ := h c List.mem_cons_self
    have hrest := ih (fun d hd => h d (List.mem_cons_of_mem _ hd)) (place + 1)
    simp only [List.cons_append, placeholdersFrom, hq, and_false, if_false, Quoting.next, hd, hs,
      or_self, hrest, List.length_cons]
    congr 1
    omega

lemma placeholdersFrom_doubled {quote : Char} (hq : quote = '"' ∨ quote = '\'') (s : List Char)
    (place : Nat) (rest : List Char) :
    placeholdersFrom (.inside quote) place (Text.doubleChars quote s ++ quote :: rest) =
      placeholdersFrom .outside (place + (Text.doubleChars quote s).length + 1) rest := by
  have hmark : quote ≠ '?' := by
    rcases hq with rfl | rfl <;> decide
  induction s generalizing place with
  | nil => simp [Text.doubleChars, placeholdersFrom, Quoting.next]
  | cons c s ih =>
    by_cases hc : c = quote
    · have hrest := ih (place + 1 + 1)
      simp only [Text.doubleChars, hc, if_true, List.cons_append, placeholdersFrom, Quoting.next,
        hmark, and_false, if_false, hq, hrest, List.length_cons]
      congr 1
      omega
    · have hrest := ih (place + 1)
      simp only [Text.doubleChars, hc, if_false, List.cons_append, placeholdersFrom, Quoting.next,
        reduceCtorEq, false_and, hrest, List.length_cons]
      congr 1
      omega

lemma sealed_enclosed {quote : Char} (hq : quote = '"' ∨ quote = '\'') (s : List Char) :
    Sealed (quote :: Text.doubleChars quote s ++ [quote]) := by
  intro place rest
  have hmark : quote ≠ '?' := by
    rcases hq with rfl | rfl <;> decide
  have hrest := placeholdersFrom_doubled hq s (place + 1) rest
  simp only [List.cons_append, List.append_assoc, List.nil_append, placeholdersFrom, hmark,
    and_false, if_false, Quoting.next, hq, if_true, hrest, List.length_cons, List.length_append,
    List.length_nil]
  congr 1
  omega

lemma AllDigits.plain {ds : List Char} (h : AllDigits ds) : Plain ds := by
  intro c hc
  have hdigit := h c hc
  refine ⟨?_, ?_, ?_⟩ <;> rintro rfl <;> revert hdigit <;> decide

lemma NumberText.plain {cs : List Char} (h : NumberText cs) : Plain cs := by
  induction h with
  | whole _ hd => exact hd.plain
  | point _ hd he =>
    intro c hc
    rcases List.mem_append.mp hc with hc | hc
    · exact hd.plain c hc
    · rcases List.mem_cons.mp hc with rfl | hc
      · decide
      · exact he.plain c hc
  | power _ _ hs _ he ih =>
    intro c hc
    rcases List.mem_append.mp hc with hc | hc
    · exact ih c hc
    · rcases List.mem_cons.mp hc with rfl | hc
      · decide
      · rcases List.mem_cons.mp hc with rfl | hc
        · rcases hs with rfl | rfl <;> decide
        · exact he.plain c hc

lemma AllHex.doubleChars {cs : List Char} (h : AllHex cs) : Text.doubleChars '\'' cs = cs := by
  induction cs with
  | nil => rfl
  | cons c cs ih =>
    have hc : c ≠ '\'' := by
      rintro rfl
      exact absurd (h _ List.mem_cons_self) (by decide)
    rw [Text.doubleChars, if_neg hc, ih fun d hd => h d (List.mem_cons_of_mem _ hd)]

lemma LiteralText.sealed {cs : List Char} (h : LiteralText cs) : Sealed cs := by
  cases h with
  | null => exact Plain.sealed (by decide)
  | number hn => exact hn.plain.sealed
  | @negative ds hn =>
    have hsign : Sealed ['-'] := Plain.sealed (by decide)
    exact hsign.append hn.plain.sealed
  | text t => exact sealed_enclosed (Or.inr rfl) t
  | @blob ds hx _ =>
    have hmark : Sealed ['X'] := Plain.sealed (by decide)
    have hbody : Sealed ('\'' :: Text.doubleChars '\'' ds ++ ['\'']) :=
      sealed_enclosed (Or.inr rfl) ds
    rw [hx.doubleChars] at hbody
    exact hmark.append hbody

def Sql.AllSealed (s : Sql) : Prop := ∀ p ∈ s, p.param? = none → Sealed p.text.toList

namespace Sql.AllSealed

lemma nil : AllSealed [] := by
  intro p hp
  cases hp

lemma append {s t : Sql} (hs : s.AllSealed) (ht : t.AllSealed) : (s ++ t).AllSealed := by
  intro p hp
  exact (List.mem_append.mp hp).elim (hs p) (ht p)

lemma cons {p : Piece} {s : Sql} (hp : p.param? = none → Sealed p.text.toList)
    (hs : s.AllSealed) : AllSealed (p :: s) := by
  intro q hq
  rcases List.mem_cons.mp hq with rfl | hq
  · exact hp
  · exact hs q hq

lemma word {w : String} {s : Sql} (hw : Plain w.toList) (hs : s.AllSealed) :
    AllSealed (.word w :: s) :=
  cons (fun _ => hw.sealed) hs

lemma name {n : String} {s : Sql} (hs : s.AllSealed) : AllSealed (.name n :: s) := by
  refine cons (fun _ => ?_) hs
  rw [Piece.text, quoteIdentifier, Text.enclose, String.toList_ofList]
  exact sealed_enclosed (Or.inl rfl) n.toList

lemma hole {p : Param} {s : Sql} (hs : s.AllSealed) : AllSealed (.hole p :: s) :=
  cons (fun h => by cases h) hs

lemma separated {w : String} {parts : List Sql} (hw : Plain w.toList)
    (h : ∀ s ∈ parts, s.AllSealed) : AllSealed (separated w parts) := by
  intro p hp
  rcases mem_separated hp with rfl | ⟨s, hs, hp⟩
  · exact fun _ => hw.sealed
  · exact h s hs p hp

end Sql.AllSealed

def Sql.holesFrom (place : Nat) : Sql → List Nat
  | [] => []
  | p :: rest =>
    if p.param?.isSome then place :: holesFrom (place + p.text.toList.length) rest
    else holesFrom (place + p.text.toList.length) rest

lemma Sql.holesFrom_append (s t : Sql) (place : Nat) :
    holesFrom place (s ++ t) =
      holesFrom place s ++ holesFrom (place + s.text.toList.length) t := by
  induction s generalizing place with
  | nil => simp [holesFrom, text]
  | cons p s ih =>
    have hplace : place + (text (p :: s)).toList.length =
        place + p.text.toList.length + (text s).toList.length := by
      rw [toList_text_cons, List.length_append, Nat.add_assoc]
    simp only [List.cons_append, holesFrom, ih, hplace]
    split <;> rfl

lemma Sql.length_holesFrom (s : Sql) (place : Nat) :
    (holesFrom place s).length = s.params.length := by
  induction s generalizing place with
  | nil => rfl
  | cons p s ih => cases hp : p.param? <;> simp [holesFrom, params, hp, ih]

lemma placeholdersFrom_text {s : Sql} (h : s.AllSealed) (place : Nat) :
    placeholdersFrom .outside place s.text.toList = s.holesFrom place := by
  induction s generalizing place with
  | nil => simp [Sql.text, Sql.holesFrom, placeholdersFrom]
  | cons p s ih =>
    have hrest := fun n => ih (fun q hq => h q (List.mem_cons_of_mem _ hq)) n
    rw [Sql.toList_text_cons]
    cases hp : p.param? with
    | none =>
      rw [h p List.mem_cons_self hp, hrest, Sql.holesFrom, hp]
      rfl
    | some q =>
      have hhole : p.text.toList = ['?'] := by
        cases p with
        | hole _ => simp [Piece.text]
        | word _ | name _ | literal _ => cases hp
      rw [Sql.holesFrom, hp, hhole]
      simp [placeholdersFrom, Quoting.next, hrest]

end Tablewright
