import Tablewright.Number.Reading
import Tablewright.Proofs.Statement.Comparison

/-! What the engine takes a value for that is written into a statement, and what it takes the same
value for when it is bound. Its integers have 64 bits; a longer numeral it reads as a number in
double precision, and a longer integer it does not bind at all. -/

namespace Tablewright

inductive Datum where
  | null
  | integer (n : Int)
  | real (x : Double)
  | text (s : String)
  | blob (bytes : List UInt8)
deriving DecidableEq, Repr

def IsStorable (n : Int) : Prop := -2 ^ 63 ≤ n ∧ n < 2 ^ 63

instance : DecidablePred IsStorable := fun _ => inferInstanceAs (Decidable (_ ∧ _))

namespace Datum

/-- A whole number and how it is spelled; `near` is the number in double precision that is taken for
a numeral. -/
def ofInt (near : List Char → Double) (n : Int) (spelling : List Char) : Datum :=
  if IsStorable n then integer n else real (near spelling)

def ofNumeral (near : List Char → Double) (negative : Bool) (cs : List Char) : Datum :=
  let spelling := if negative then '-' :: cs else cs
  if cs.all Char.isDigit then ofInt near (signed negative (Nat.ofDigitChars 10 cs 0)) spelling
  else real (near spelling)

def ofHex : List Char → List UInt8
  | high :: low :: rest => UInt8.ofNat (readBase 16 [high, low]) :: ofHex rest
  | _ => []

def read? (near : List Char → Double) : List Token → Option (Datum × List Token)
  | .number cs :: rest => some (ofNumeral near false cs, rest)
  | .mark c :: .number cs :: rest => if c = '-' then some (ofNumeral near true cs, rest) else none
  | .text t :: rest => some (text (String.ofList t), rest)
  | .blob ds :: rest => some (blob (ofHex ds), rest)
  | .word w :: rest => if w.map Char.toUpper = "NULL".toList then some (null, rest) else none
  | _ => none

def Denotes : Datum → Value → Prop
  | null, .null => True
  | integer n, .bool b => n = if b then 1 else 0
  | integer n, .int m => n = m
  | real x, .int n => x.toInt? = some n
  | real x, .real y => x = y
  | text s, .text t => s = t
  | blob bytes, .blob others => bytes = others
  | _, _ => False

end Datum

/-- What a value is for the engine when it is bound, if it can be. -/
def Value.bound? : Value → Option Datum
  | null => some .null
  | bool b => some (.integer (if b then 1 else 0))
  | int n => if IsStorable n then some (.integer n) else none
  | real x => some (if x.isNaN then .null else .real x)
  | text s => some (.text s)
  | blob bytes => some (.blob bytes)
  | _ => none

namespace Datum

variable {near : List Char → Double} {rest : List Char}

lemma ofHex_hexBytes (bytes : List UInt8) : ofHex (Text.hexBytes bytes).toList = bytes := by
  have hdigit : ∀ d < 16, digitValue d.digitChar = d := by decide
  have hhex {n : Nat} (h : n < 256) :
      (Text.hex 2 n).toList = [(n / 16).digitChar, (n % 16).digitChar] := by
    rw [Text.hex, String.toList_ofList, Nat.toDigits_eq_if (by decide)]
    split
    · next hn => simp [Nat.div_eq_of_lt hn, Nat.mod_eq_of_lt hn]
    · rw [Nat.toDigits_of_lt_base (by omega)]
      simp
  induction bytes with
  | nil => rfl
  | cons b bytes ih =>
    rw [toList_hexBytes_cons, hhex b.toNat_lt, List.cons_append, List.cons_append, List.nil_append,
      ofHex, ih, readBase, List.foldl_cons, List.foldl_cons, List.foldl_nil,
      hdigit _ (by have := b.toNat_lt; omega), hdigit _ (Nat.mod_lt _ (by decide)), Nat.zero_mul,
      Nat.zero_add, Nat.div_add_mod', UInt8.ofNat_toNat]

lemma ofNumeral_repr (negative : Bool) (n : Nat) :
    ofNumeral near negative n.repr.toList =
      ofInt near (signed negative n)
        (if negative then '-' :: n.repr.toList else n.repr.toList) := by
  have hdigits : n.repr.toList.all Char.isDigit = true := by
    rw [Nat.toList_repr, List.all_eq_true]
    exact allDigits_toDigits n
  rw [ofNumeral, if_pos hdigits, Nat.toList_repr, Nat.ofDigitChars_ten_toDigits]

lemma read?_of_reads {cs : List Char} {ts : List Token} {d : Datum} (h : Reads cs ts)
    (hd : ∀ us, read? near (ts ++ us) = some (d, us)) (hrest : Ends rest) :
    read? near (tokensFrom .ready (cs ++ rest)) = some (d, tokensFrom .ready rest) := by
  rw [h rest hrest, hd]

lemma read?_int (n : Int) (hrest : Ends rest) :
    read? near (tokensFrom .ready ((toString n).toList ++ rest)) =
      some (ofInt near n (toString n).toList, tokensFrom .ready rest) := by
  cases n with
  | ofNat n =>
    refine read?_of_reads (numeral_repr n).reads (fun us => ?_) hrest
    exact congrArg (fun d => some (d, us)) (ofNumeral_repr false n)
  | negSucc n =>
    have htext : (toString (Int.negSucc n)).toList = '-' :: (n + 1).repr.toList := by
      simp [toString, Int.repr]
    rw [htext]
    refine read?_of_reads (numeral_repr (n + 1)).reads_negative (fun us => ?_) hrest
    exact congrArg (fun d => some (d, us)) (ofNumeral_repr true (n + 1))

lemma read?_blob (bytes : List UInt8) (hrest : Ends rest) :
    read? near (tokensFrom .ready (("X'" ++ Text.hexBytes bytes ++ "'").toList ++ rest)) =
      some (blob bytes, tokensFrom .ready rest) := by
  have htext : ("X'" ++ Text.hexBytes bytes ++ "'").toList =
      'X' :: '\'' :: (Text.hexBytes bytes).toList ++ ['\''] := by simp
  rw [htext]
  refine read?_of_reads (reads_blob (hexBytes_hex bytes) ?_) (fun us => ?_) hrest
  · rw [length_hexBytes]
    omega
  · exact congrArg (fun bs => some (blob bs, us)) (ofHex_hexBytes bytes)

lemma read?_text (s : String) (hrest : Ends rest) :
    read? near (tokensFrom .ready ((Text.enclose '\'' s).toList ++ rest)) =
      some (text s, tokensFrom .ready rest) := by
  rw [Text.enclose, String.toList_ofList]
  refine read?_of_reads (reads_text s.toList) (fun us => ?_) hrest
  exact congrArg (fun t => some (text t, us)) String.ofList_toList

end Datum

/-- A value that is written and followed by a blank, a comma, a closing parenthesis or nothing is
read as one value. That is what the engine takes it for when it is bound if and only if it is no
integer beyond 64 bits; such an integer is kept only if it has a double precision number of its
own. -/
theorem Value.literal_denotes_iff {v : Value} (hv : ∀ x, v ≠ .real x) {s : String}
    (h : v.literal = .ok s) (near : List Char → Double) :
    ∃ d : Datum, (∀ rest, Ends rest →
        Datum.read? near (tokensFrom .ready (s.toList ++ rest)) =
          some (d, tokensFrom .ready rest)) ∧
      (v.bound? = some d ↔ ∀ n, v = .int n → IsStorable n) ∧
      (d.Denotes v ↔ ∀ n, v = .int n → IsStorable n ∨ (near s.toList).toInt? = some n) := by
  cases v with
  | null =>
    obtain rfl := Except.ok.inj h
    refine ⟨.null, fun rest hrest => ?_, iff_of_true rfl nofun, iff_of_true trivial nofun⟩
    exact Datum.read?_of_reads reads_null (fun us => rfl) hrest
  | bool b =>
    obtain rfl := Except.ok.inj h
    refine ⟨.integer (if b then 1 else 0), fun rest hrest => ?_, iff_of_true rfl nofun,
      iff_of_true rfl nofun⟩
    cases b
    · exact Datum.read?_int 0 hrest
    · exact Datum.read?_int 1 hrest
  | int n =>
    obtain rfl := Except.ok.inj h
    refine ⟨.ofInt near n (toString n).toList, fun rest hrest => Datum.read?_int n hrest, ?_, ?_⟩
    · by_cases hn : IsStorable n <;> simp [bound?, Datum.ofInt, hn]
    · by_cases hn : IsStorable n <;> simp [Datum.Denotes, Datum.ofInt, hn]
  | real x => exact absurd rfl (hv x)
  | text t =>
    obtain rfl := Except.ok.inj h
    exact ⟨.text t, fun rest hrest => Datum.read?_text t hrest, iff_of_true rfl nofun,
      iff_of_true rfl nofun⟩
  | blob bytes =>
    obtain rfl := Except.ok.inj h
    exact ⟨.blob bytes, fun rest hrest => Datum.read?_blob bytes hrest, iff_of_true rfl nofun,
      iff_of_true rfl nofun⟩
  | _ => cases h

theorem Value.literal_denotes_iff_quote :
    ∃ s, (text "it's, ''").literal = .ok s ∧ ∀ near, ∃ d : Datum,
      (text "it's, ''").bound? = some d ∧ d.Denotes (text "it's, ''") ∧
        Datum.read? near (tokensFrom .ready (s.toList ++ [',', '1'])) =
          some (d, tokensFrom .ready [',', '1']) := by
  refine ⟨_, rfl, fun near => ?_⟩
  obtain ⟨d, hread, hbound, hdenotes⟩ :=
    Value.literal_denotes_iff (v := text "it's, ''") nofun rfl near
  exact ⟨d, hbound.mpr nofun, hdenotes.mpr nofun, hread _ fun c hc =>
    Or.inr (Or.inl (Option.some.inj hc).symm)⟩

namespace Double

variable {x : Double}

lemma natAbs_lt_of_odd {n : Int} (h : x.toInt? = some n) (hodd : n.natAbs % 2 = 1) :
    n.natAbs < 2 ^ 53 := by
  have hfactor := x.factor_lt
  have hsize {m : Nat} (hm : (if x.isNegative then -(m : Int) else m) = n) : n.natAbs = m := by
    rw [← hm]
    split <;> omega
  rw [toInt?] at h
  split at h
  · obtain ⟨_, hlift, hn⟩ := Option.map_eq_some_iff.mp h
    obtain ⟨m, hm, hcast⟩ := Option.bind_eq_some_iff.mp hlift
    obtain rfl := Option.some.inj hcast
    rw [hsize hn] at hodd ⊢
    split at hm
    · obtain rfl := Option.some.inj hm
      -- a power of two other than the first makes the product even
      cases hpower : x.power.toNat with
      | zero => simpa [hpower] using hfactor
      | succ k =>
        rw [hpower, Nat.pow_eq, Nat.pow_succ, ← Nat.mul_assoc] at hodd
        omega
    · dsimp only at hm
      split at hm
      · obtain rfl := Option.some.inj hm
        exact Nat.lt_of_le_of_lt (Nat.div_le_self _ _) hfactor
      · cases hm
  · cases h

end Double

/-- An integer that no number in double precision is: whichever is taken for its numeral, the value
is lost. -/
theorem Value.literal_rounded : (int (2 ^ 63 + 1)).literal = .ok "9223372036854775809" ∧
    ∀ near, ∃ x, Datum.read? near (tokens "9223372036854775809") = some (.real x, []) ∧
      ¬ (Datum.real x).Denotes (.int (2 ^ 63 + 1)) := by
  refine ⟨rfl, fun near => ⟨near "9223372036854775809".toList, ?_, fun h => ?_⟩⟩
  · exact Datum.read?_int (2 ^ 63 + 1) .nil
  · have hsmall := Double.natAbs_lt_of_odd h (by decide)
    omega

end Tablewright
