import Mathlib.Data.List.TakeWhile
import Mathlib.Tactic.Ring
import Tablewright.Number.Shortest

namespace Tablewright

def AllDigits (cs : List Char) : Prop := ∀ c ∈ cs, c.isDigit = true

/-- Digits, then perhaps a point and digits, then perhaps an exponent with its sign. -/
inductive NumberText : List Char → Prop
  | whole {ds} : ds ≠ [] → AllDigits ds → NumberText ds
  | point {ds es} : ds ≠ [] → AllDigits ds → AllDigits es → NumberText (ds ++ '.' :: es)
  | power {ds es} {sign : Char} : NumberText ds → 'e' ∉ ds → sign = '+' ∨ sign = '-' → es ≠ [] →
      AllDigits es → NumberText (ds ++ 'e' :: sign :: es)

lemma AllDigits.append {cs ds : List Char} (hc : AllDigits cs) (hd : AllDigits ds) :
    AllDigits (cs ++ ds) := by
  intro c h
  exact (List.mem_append.mp h).elim (hc c) (hd c)

lemma allDigits_zeros (n : Nat) : AllDigits (List.replicate n '0') := by
  intro c h
  rw [List.eq_of_mem_replicate h]
  rfl

lemma allDigits_toDigits (n : Nat) : AllDigits (Nat.toDigits 10 n) :=
  fun _ h => Nat.isDigit_of_mem_toDigits (by decide) (by decide) h

lemma exists_nonzero_digit {n : Nat} (h : n ≠ 0) : ∃ c ∈ Nat.toDigits 10 n, c ≠ '0' := by
  by_contra hcon
  have hall : ∀ c ∈ Nat.toDigits 10 n, c = '0' := by
    intro c hc
    by_contra hne
    exact hcon ⟨c, hc, hne⟩
  have hzero : Nat.ofDigitChars 10 (Nat.toDigits 10 n) 0 = 0 := by
    rw [List.eq_replicate_of_mem hall]
    simp
  rw [Nat.ofDigitChars_ten_toDigits] at hzero
  exact h hzero

lemma padded_digits (width n : Nat) :
    AllDigits (Text.padded width n).toList ∧ (Text.padded width n).toList ≠ [] := by
  simp only [Text.padded, String.toList_ofList]
  exact ⟨(allDigits_zeros _).append (allDigits_toDigits n), by simp⟩

namespace Double

lemma dropZeros_digits {digits : List Char} (h : AllDigits digits) : AllDigits (dropZeros digits) := by
  intro c hc
  have hmem : c ∈ digits.reverse :=
    (List.dropWhile_sublist _).subset (List.mem_reverse.mp hc)
  exact h c (List.mem_reverse.mp hmem)

lemma dropZeros_ne_nil {digits : List Char} (h : ∃ c ∈ digits, c ≠ '0') : dropZeros digits ≠ [] := by
  obtain ⟨c, hc, hne⟩ := h
  intro hnil
  have hall := List.dropWhile_eq_nil_iff.mp (List.reverse_eq_nil_iff.mp hnil) c
    (List.mem_reverse.mpr hc)
  exact hne (by simpa using hall)

lemma write_positional {l : Layout} {digits : List Char} (hd : AllDigits digits) (e : Int)
    (h : (l.positionalFrom ≤ e && e < l.positionalBelow) = true) :
    NumberText (l.write digits e).toList := by
  by_cases he : e < 0
  · have htext : (l.write digits e).toList =
        ['0'] ++ '.' :: (List.replicate (-e - 1).toNat '0' ++ digits) := by
      simp [Layout.write, h, he]
    rw [htext]
    exact .point (by simp) (allDigits_zeros 1) ((allDigits_zeros _).append hd)
  · have htext : (l.write digits e).toList =
        (digits.take (e.toNat + 1) ++
          List.replicate (e.toNat + 1 - (digits.take (e.toNat + 1)).length) '0') ++
        '.' :: (if (digits.drop (e.toNat + 1)).isEmpty then ['0']
          else digits.drop (e.toNat + 1)) := by
      simp [Layout.write, h, he]
    rw [htext]
    refine .point ?_ ?_ ?_
    · intro hnil
      have hlen := congrArg List.length hnil
      simp only [List.length_append, List.length_replicate, List.length_nil] at hlen
      omega
    · exact AllDigits.append (fun c hc => hd c (List.mem_of_mem_take hc)) (allDigits_zeros _)
    · split
      · exact allDigits_zeros 1
      · exact fun c hc => hd c (List.mem_of_mem_drop hc)

lemma write_scaled {l : Layout} {d : Char} {rest : List Char} (hd : AllDigits (d :: rest)) (e : Int)
    (h : (l.positionalFrom ≤ e && e < l.positionalBelow) = false) :
    NumberText (l.write (d :: rest) e).toList := by
  have hhead : AllDigits [d] := fun c hc => hd c (by simp_all)
  have hrest : AllDigits rest := fun c hc => hd c (List.mem_cons_of_mem _ hc)
  have hnoe : ∀ {cs}, AllDigits cs → 'e' ∉ cs := fun hcs hmem => absurd (hcs 'e' hmem) (by decide)
  obtain ⟨hpower, hne⟩ := padded_digits l.exponentWidth e.natAbs
  have hsign : ∃ sign : Char, (sign = '+' ∨ sign = '-') ∧
      (l.exponent e).toList = 'e' :: sign :: (Text.padded l.exponentWidth e.natAbs).toList := by
    by_cases he : e < 0
    · exact ⟨'-', Or.inr rfl, by simp [Layout.exponent, he]⟩
    · exact ⟨'+', Or.inl rfl, by simp [Layout.exponent, he]⟩
  obtain ⟨sign, hs, hexp⟩ := hsign
  cases rest with
  | nil =>
    have htext : (l.write [d] e).toList = [d] ++ (l.exponent e).toList := by
      simp [Layout.write, h]
    rw [htext, hexp]
    exact .power (.whole (by simp) hhead) (hnoe hhead) hs hne hpower
  | cons c rest =>
    have htext : (l.write (d :: c :: rest) e).toList =
        ([d] ++ '.' :: c :: rest) ++ (l.exponent e).toList := by
      simp [Layout.write, h]
    rw [htext, hexp]
    refine .power (.point (by simp) hhead hrest) ?_ hs hne hpower
    intro hmem
    rcases List.mem_append.mp hmem with hmem | hmem
    · exact hnoe hhead hmem
    · rcases List.mem_cons.mp hmem with hmem | hmem
      · exact absurd hmem (by decide)
      · exact hnoe hrest hmem

lemma write_numeral (l : Layout) {digits : List Char} (hd : AllDigits digits) (hne : digits ≠ [])
    (e : Int) : NumberText (l.write digits e).toList := by
  cases h : (l.positionalFrom ≤ e && e < l.positionalBelow) with
  | true => exact write_positional hd e h
  | false =>
    obtain ⟨d, rest, rfl⟩ := List.exists_cons_of_ne_nil hne
    exact write_scaled hd e h

end Double

end Tablewright
