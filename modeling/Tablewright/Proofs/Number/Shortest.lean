import Mathlib.Algebra.Order.Ring.Nat
import Mathlib.Data.Nat.Log
import Mathlib.Tactic.Ring
import Tablewright.Proofs.Number.Numeral

namespace Tablewright.Double

lemma ten_pow_le_two_pow {e b : Nat} (h : e ≤ 3 * (b / 10)) : 10 ^ e ≤ 2 ^ b :=
  calc 10 ^ e ≤ 10 ^ (3 * (b / 10)) := Nat.pow_le_pow_right (by decide) h
    _ = (10 ^ 3) ^ (b / 10) := Nat.pow_mul ..
    _ ≤ (2 ^ 10) ^ (b / 10) := Nat.pow_le_pow_left (by decide) _
    _ = 2 ^ (10 * (b / 10)) := (Nat.pow_mul ..).symm
    _ ≤ 2 ^ b := Nat.pow_le_pow_right (by decide) (by omega)

lemma two_pow_le_ten_pow {b e : Nat} (h : 4 * (b / 13 + 1) ≤ e) : 2 ^ b ≤ 10 ^ e :=
  calc 2 ^ b ≤ 2 ^ (13 * (b / 13 + 1)) := Nat.pow_le_pow_right (by decide) (by omega)
    _ = (2 ^ 13) ^ (b / 13 + 1) := Nat.pow_mul ..
    _ ≤ (10 ^ 4) ^ (b / 13 + 1) := Nat.pow_le_pow_left (by decide) _
    _ = 10 ^ (4 * (b / 13 + 1)) := (Nat.pow_mul ..).symm
    _ ≤ 10 ^ e := Nat.pow_le_pow_right (by decide) h

variable (x : Double)

def binary : Int := (x.factor.log2 : Int) + x.power

lemma exponentBits_le : x.exponentBits ≤ 2047 := by
  simp only [exponentBits, UInt64.toNat_and]
  exact Nat.and_le_right

lemma fraction_lt : x.fraction < 2 ^ 52 := by
  have h : x.fraction ≤ 2 ^ 52 - 1 := by
    simp only [fraction, UInt64.toNat_and]
    exact Nat.and_le_right
  omega

lemma factor_lt : x.factor < 2 ^ 53 := by
  have hfraction := x.fraction_lt
  simp only [factor, Nat.pow_eq]
  split <;> omega

lemma binary_bounds (hf : x.isFinite = true) (h : x.factor ≠ 0) :
    -1074 ≤ x.binary ∧ x.binary ≤ 1023 := by
  have hbits : x.exponentBits ≠ 2047 := by simpa [isFinite] using hf
  have hle := x.exponentBits_le
  have hlog : x.factor.log2 < 53 := (Nat.log2_lt h).mpr x.factor_lt
  simp only [binary, power]
  split <;> omega

lemma scaleFrom_le (k : Int) (fuel : Nat) : x.scaleFrom k fuel ≤ k + fuel := by
  induction fuel generalizing k with
  | zero => simp [scaleFrom]
  | succ fuel ih =>
    simp only [scaleFrom]
    split
    · omega
    · have hnext := ih (k + 1)
      omega

lemma scale_le : x.scale ≤ x.binary * 30103 / 100000 + 4 := by
  have h := x.scaleFrom_le (x.binary * 30103 / 100000 - 1) 5
  have hscale : x.scale = x.scaleFrom (x.binary * 30103 / 100000 - 1) 5 := rfl
  omega

lemma floorOn_ne_zero (hf : x.isFinite = true) (h : x.factor ≠ 0) (exp : Int)
    (he : exp ≤ x.binary * 30103 / 100000 - 14) : x.floorOn exp ≠ 0 := by
  obtain ⟨hlow, hhigh⟩ := x.binary_bounds hf h
  have hfactor : 2 ^ x.factor.log2 ≤ x.factor := Nat.log2_self_le h
  have hsize : 2 ^ (-x.power).toNat * 10 ^ exp.toNat ≤
      2 ^ x.factor.log2 * 2 ^ x.power.toNat * 10 ^ (-exp).toNat := by
    rw [← Nat.pow_add]
    rcases Int.le_total 0 x.binary with hb | hb
    · -- a number from one on: the power of ten stays below the power of two
      have hten : 10 ^ exp.toNat ≤ 2 ^ x.binary.toNat := ten_pow_le_two_pow (by omega)
      have hexp : x.factor.log2 + x.power.toNat = (-x.power).toNat + x.binary.toNat := by
        simp only [binary] at hb ⊢
        omega
      rw [hexp, Nat.pow_add, Nat.mul_assoc]
      refine Nat.mul_le_mul_left _ (hten.trans ?_)
      exact Nat.le_mul_of_pos_right _ (Nat.pow_pos (by decide))
    · have htwo : 2 ^ (-x.binary).toNat ≤ 10 ^ (-exp).toNat := two_pow_le_ten_pow (by omega)
      have hexp : (-x.power).toNat =
          x.factor.log2 + x.power.toNat + (-x.binary).toNat := by
        simp only [binary] at hb ⊢
        omega
      have hzero : exp.toNat = 0 := by omega
      rw [hzero, Nat.pow_zero, Nat.mul_one, hexp, Nat.pow_add]
      exact Nat.mul_le_mul_left _ htwo
  have hnum : 2 ^ (-x.power).toNat * 10 ^ exp.toNat ≤
      x.factor * 2 ^ x.power.toNat * 10 ^ (-exp).toNat :=
    hsize.trans (Nat.mul_le_mul_right _ (Nat.mul_le_mul_right _ hfactor))
  have hden : 0 < 2 ^ (-x.power).toNat * 10 ^ exp.toNat :=
    Nat.mul_pos (Nat.pow_pos (by decide)) (Nat.pow_pos (by decide))
  exact (Nat.div_pos hnum hden).ne'

lemma digits_ne_zero_of_readsBack (h : x.factor ≠ 0) {d : Decimal} (hd : x.readsBack d = true) :
    d.digits ≠ 0 := by
  intro hzero
  have hlow : ∀ low : Nat, 0 < low → compareScaled 0 d.exp low (x.power - 2) = .lt := by
    intro low hpos
    rw [compareScaled, Nat.zero_mul, Nat.zero_mul, Nat.compare_eq_lt]
    exact Nat.mul_pos (Nat.mul_pos hpos (Nat.pow_pos (by decide))) (Nat.pow_pos (by decide))
  have hcmp := hlow (if x.narrowBelow then 4 * x.factor - 1 else 4 * x.factor - 2)
    (by split <;> omega)
  simp [readsBack, hzero, hcmp] at hd

lemma readsBack_of_pickOn {exp : Int} {d : Decimal} (h : x.pickOn exp = some d) :
    x.readsBack d = true := by
  simp only [pickOn] at h
  split at h
  · next hl _ => exact Option.some.inj h ▸ hl
  · next _ hh => exact Option.some.inj h ▸ hh
  · cases h
  · next hl hh =>
    split at h
    · exact Option.some.inj h ▸ hl
    · exact Option.some.inj h ▸ hh
    · split at h
      · exact Option.some.inj h ▸ hl
      · exact Option.some.inj h ▸ hh

lemma shortestFrom_digits (h : x.factor ≠ 0) (k : Int) (n fuel : Nat)
    (hlast : x.floorOn (k - (n + fuel : Nat)) ≠ 0) : (x.shortestFrom k n fuel).digits ≠ 0 := by
  induction fuel generalizing n with
  | zero => exact hlast
  | succ fuel ih =>
    simp only [shortestFrom]
    split
    · next d hd => exact x.digits_ne_zero_of_readsBack h (x.readsBack_of_pickOn hd)
    · exact ih (n + 1) (by rwa [Nat.add_right_comm])

lemma shortest_digits (hf : x.isFinite = true) (h : x.factor ≠ 0) : x.shortest.digits ≠ 0 := by
  apply x.shortestFrom_digits h
  apply x.floorOn_ne_zero hf h
  have hscale := x.scale_le
  omega

lemma shown_numeral (hf : x.isFinite = true) :
    ∃ cs, NumberText cs ∧ (x.shown.toList = cs ∨ x.shown.toList = '-' :: cs) := by
  have hnan : x.isNaN = false := by simp [isNaN, hf]
  have hbody : ∃ s : String, NumberText s.toList ∧
      x.shown = (if x.isNegative then "-" else "") ++ s := by
    by_cases h : x.factor = 0
    · refine ⟨plainLayout.write ['0'] 0, write_numeral _ (allDigits_zeros 1) (by simp) 0, ?_⟩
      simp [shown, Layout.render, hnan, hf, h]
    · let d := x.shortest
      let digits := dropZeros (Nat.toDigits 10 d.digits)
      have hne : digits ≠ [] := dropZeros_ne_nil (exists_nonzero_digit (x.shortest_digits hf h))
      refine ⟨plainLayout.write digits (d.exp + (Nat.toDigits 10 d.digits).length - 1),
        write_numeral _ (dropZeros_digits (allDigits_toDigits _)) hne _, ?_⟩
      simp [shown, Layout.render, hnan, hf, h, d, digits]
  obtain ⟨s, hs, hshown⟩ := hbody
  refine ⟨s.toList, hs, ?_⟩
  rw [hshown]
  cases x.isNegative with
  | true => exact Or.inr (by simp)
  | false => exact Or.inl (by simp)

end Tablewright.Double
