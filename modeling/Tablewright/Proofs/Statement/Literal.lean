import Tablewright.Proofs.Number.Shortest
import Tablewright.Statement.Sql

namespace Tablewright

def AllHex (cs : List Char) : Prop := ∀ c ∈ cs, c ∈ "0123456789abcdef".toList

inductive LiteralText : List Char → Prop
  | null : LiteralText "NULL".toList
  | number {cs} : NumberText cs → LiteralText cs
  | negative {cs} : NumberText cs → LiteralText ('-' :: cs)
  | text (t : List Char) : LiteralText ('\'' :: Text.doubleChars '\'' t ++ ['\''])
  | blob {cs} : AllHex cs → cs.length % 2 = 0 → LiteralText ('X' :: '\'' :: cs ++ ['\''])

lemma toDigits_hex (n : Nat) : AllHex (Nat.toDigits 16 n) := by
  have hdigit : ∀ d < 16, d.digitChar ∈ "0123456789abcdef".toList := by decide
  induction n using Nat.strongRecOn with
  | ind n ih =>
    rw [Nat.toDigits_eq_if (by decide)]
    split
    · next h =>
      intro c hc
      rw [List.mem_singleton.mp hc]
      exact hdigit n h
    · intro c hc
      rcases List.mem_append.mp hc with hc | hc
      · exact ih (n / 16) (by omega) c hc
      · rw [List.mem_singleton.mp hc]
        exact hdigit (n % 16) (by omega)

lemma hexBytes_hex (bytes : List UInt8) : AllHex (Text.hexBytes bytes).toList := by
  intro c hc
  rw [Text.hexBytes, String.toList_join] at hc
  obtain ⟨s, hs, hc⟩ := List.mem_flatMap.mp hc
  obtain ⟨b, -, rfl⟩ := List.mem_map.mp hs
  simp only [Text.hex, String.toList_ofList] at hc
  rcases List.mem_append.mp hc with hc | hc
  · rw [List.eq_of_mem_replicate hc]
    decide
  · exact toDigits_hex _ c hc

lemma length_hex_two {n : Nat} (h : n < 256) : (Text.hex 2 n).toList.length = 2 := by
  have hlen : (Nat.toDigits 16 n).length ≤ 2 := by
    rw [Nat.toDigits_eq_if (by decide)]
    split
    · simp
    · rw [Nat.toDigits_of_lt_base (by omega)]
      simp
  simp only [Text.hex, String.toList_ofList, List.length_append, List.length_replicate]
  omega

lemma toList_hexBytes_cons (b : UInt8) (bytes : List UInt8) : (Text.hexBytes (b :: bytes)).toList =
    (Text.hex 2 b.toNat).toList ++ (Text.hexBytes bytes).toList := by
  simp [Text.hexBytes]

lemma length_hexBytes (bytes : List UInt8) :
    (Text.hexBytes bytes).toList.length = 2 * bytes.length := by
  induction bytes with
  | nil => simp [Text.hexBytes]
  | cons b bytes ih =>
    rw [toList_hexBytes_cons, List.length_append, length_hex_two b.toNat_lt, ih, List.length_cons]
    omega

lemma numeral_repr (n : Nat) : NumberText n.repr.toList := by
  rw [Nat.toList_repr]
  exact .whole (by simp) (allDigits_toDigits n)

lemma literalText_int (n : Int) : LiteralText (toString n).toList := by
  cases n with
  | ofNat n => exact .number (numeral_repr n)
  | negSucc n =>
    have htext : (toString (Int.negSucc n)).toList = '-' :: (n + 1).repr.toList := by
      simp [toString, Int.repr]
    rw [htext]
    exact .negative (numeral_repr (n + 1))

lemma literalText_of_literal {v : Value} {s : String} (h : v.literal = .ok s) :
    LiteralText s.toList := by
  cases v with
  | null =>
    obtain rfl := Except.ok.inj h
    exact .null
  | bool b =>
    obtain rfl := Except.ok.inj h
    cases b
    · exact .number (numeral_repr 0)
    · exact .number (numeral_repr 1)
  | int n =>
    obtain rfl := Except.ok.inj h
    exact literalText_int n
  | real x =>
    by_cases hf : x.isFinite = true
    · obtain rfl : x.shown = s := by simpa [Value.literal, hf] using h
      obtain ⟨cs, hcs, hs | hs⟩ := x.shown_numeral hf
      · exact hs ▸ .number hcs
      · exact hs ▸ .negative hcs
    · simp [Value.literal, hf] at h
  | text t =>
    obtain rfl := Except.ok.inj h
    rw [Text.enclose, String.toList_ofList]
    exact .text t.toList
  | blob bytes =>
    obtain rfl := Except.ok.inj h
    have htext : ("X'" ++ Text.hexBytes bytes ++ "'").toList =
        'X' :: '\'' :: (Text.hexBytes bytes).toList ++ ['\''] := by simp
    rw [htext]
    exact .blob (hexBytes_hex bytes) (by rw [length_hexBytes]; omega)
  | _ => cases h

end Tablewright
