import Mathlib.Algebra.Order.Ring.Abs
import Mathlib.Tactic.FieldSimp
import Tablewright.Proofs.Number.Binary

namespace Tablewright.Double

open Float.Model (Format UnpackedFloat totalExponent)
open Float.Model.UnpackedFloat

section Rounding

open ExtendedMantissa

variable {s : Sign} {m : Nat} {e : Int}

lemma targetExponent_eq (t : Int) : Format.binary64.targetExponent t = max (t - 53) (-1074) := rfl

lemma shiftRight_two_pow (m n : Nat) :
    ((⟨m * 2 ^ n, false, false⟩ : ExtendedMantissa) >>> n) = ⟨m, false, false⟩ := by
  induction n generalizing m with
  | zero => simp [HShiftRight.hShiftRight, Nat.repeat]
  | succ n ih =>
    have hstep : ((⟨m * 2 ^ (n + 1), false, false⟩ : ExtendedMantissa) >>> (n + 1)) =
        ((⟨m * 2 * 2 ^ n, false, false⟩ : ExtendedMantissa) >>> n).shiftRightOne := by
      rw [Nat.mul_assoc, ← Nat.pow_succ']
      rfl
    rw [hstep, ih, shiftRightOne]
    simp

lemma Fits.log2_mul_two_pow (h : Fits m e) (n : Nat) : (m * 2 ^ n).log2 = m.log2 + n := by
  rw [Nat.log2_eq_iff (Nat.mul_pos h.pos (Nat.two_pow_pos n)).ne', Nat.pow_add]
  have hle := Nat.log2_self_le h.pos.ne'
  have hlt := @Nat.lt_log2_self m
  refine ⟨Nat.mul_le_mul_right _ hle, ?_⟩
  rw [Nat.add_right_comm, Nat.pow_add]
  exact Nat.mul_lt_mul_of_pos_right hlt (Nat.two_pow_pos n)

lemma Fits.targetExponent (h : Fits m e) (n : Nat) :
    Format.binary64.targetExponent (totalExponent (m * 2 ^ n) (e - n)) = e := by
  have hleast := h.least
  rw [targetExponent_eq, totalExponent, h.log2_mul_two_pow]
  obtain hfull | ⟨hlow, hbottom⟩ := h.log2_eq <;> omega

lemma roundWithAccuracy_eq (h : Fits m e) (s : Sign) (n : Nat) :
    roundWithAccuracy Format.binary64 s (m * 2 ^ n) (e - n) .exact = .finite s m e h.pos := by
  have hshift (n : Nat) : shiftToTargetExponent Format.binary64 (m * 2 ^ n) (e - n) .exact =
      (⟨m, false, false⟩, e) := by
    have hamount : (e - (e - n)).toNat = n := by omega
    rw [shiftToTargetExponent, h.targetExponent n, shiftToExponent, hamount]
    refine Prod.ext (shiftRight_two_pow m n) ?_
    change e - n + n = e
    omega
  have hagain : shiftToTargetExponent Format.binary64 m e .exact = (⟨m, false, false⟩, e) := by
    simpa using hshift 0
  have hround : (⟨m, false, false⟩ : ExtendedMantissa).roundedMantissa = m := rfl
  rw [roundWithAccuracy, hshift n]
  simp only [hround, hagain]
  rw [dif_neg h.pos.ne']

lemma Fits.doubled (h : Fits m e) (k : Nat) :
    ∃ i ≤ 52, i ≤ k ∧ Fits (m * 2 ^ i) (e + (k - i : Nat)) := by
  have hlog : m.log2 ≤ 52 := Nat.lt_succ_iff.mp ((Nat.log2_lt h.pos.ne').mpr h.lt)
  have hleast := h.least
  obtain ⟨i, hi⟩ : ∃ i, i = min k (52 - m.log2) := ⟨_, rfl⟩
  refine ⟨i, by omega, by omega, Nat.mul_pos h.pos (Nat.two_pow_pos i), ?_, by omega, ?_⟩
  · calc m * 2 ^ i < 2 ^ (m.log2 + 1) * 2 ^ i :=
          Nat.mul_lt_mul_of_pos_right Nat.lt_log2_self (Nat.two_pow_pos i)
      _ = 2 ^ (m.log2 + 1 + i) := (Nat.pow_add ..).symm
      _ ≤ 2 ^ 53 := Nat.pow_le_pow_right (by decide) (by omega)
  · by_cases hk : k ≤ 52 - m.log2
    · obtain hfull | hbottom := h.full
      · exact Or.inl (hfull.trans (Nat.le_mul_of_pos_right m (Nat.two_pow_pos i)))
      · right
        omega
    · left
      calc 2 ^ 52 = 2 ^ (m.log2 + i) := by congr 1; omega
        _ = 2 ^ m.log2 * 2 ^ i := Nat.pow_add ..
        _ ≤ m * 2 ^ i := Nat.mul_le_mul_right _ (Nat.log2_self_le h.pos.ne')

end Rounding

section Powers

lemma fits_two_pow (k : Nat) : Fits (2 ^ 52) (k - 52) :=
  ⟨by decide, by decide, by omega, Or.inl (Nat.le_refl _)⟩

lemma ofScientific_zero {m : Nat} (h : m ≠ 0) : UnpackedFloat.ofScientific Format.binary64 m 0 =
    roundWithAccuracy Format.binary64 .positive (m * 2 ^ 53) (-53) .exact := by
  have hsmall : ¬ ((0 : Int) > 2 ^ Format.binary64.exponentBits) := by decide
  have hlarge : ¬ ((0 : Int) < -((2 ^ Format.binary64.exponentBits : Int) + m.log2)) := by
    have hbits : (0 : Int) ≤ 2 ^ Format.binary64.exponentBits := by decide
    omega
  rw [UnpackedFloat.ofScientific, dif_neg h, if_neg hsmall, if_neg hlarge, if_pos (Int.le_refl 0),
    UnpackedFloat.mul, Nat.shiftLeft_eq]
  simp only [Int.toNat_zero, Nat.pow_zero, Nat.mul_one, Int.add_zero]
  rfl

lemma ofInt_eq {m : Nat} (h : 2 ^ 53 ≤ m) : ofInt m =
    if 400 < (Nat.toDigits 10 m).length then infinity
    else packed (roundWithAccuracy Format.binary64 .positive (m * 2 ^ 53) (-53) .exact) := by
  have hne : m ≠ 0 := by omega
  have hlarge : ¬ (m < 2 ^ 53 ∧ 0 ≤ 22) := fun hsmall => by omega
  have hscale : (400 : Int) < (Nat.toDigits 10 m).length + 0 ↔
      400 < (Nat.toDigits 10 m).length := by
    omega
  have hlow : ¬ (m = 0 ∨ ((Nat.toDigits 10 m).length : Int) + 0 < -400) := by omega
  have hscientific : ofFloat (Float.ofScientific m false 0) =
      packed (roundWithAccuracy Format.binary64 .positive (m * 2 ^ 53) (-53) .exact) := by
    rw [← ofScientific_zero hne, Float.ofScientific, dif_neg hlarge]
    rfl
  have hnegative : ¬ ((m : Int) < 0) := by omega
  simp only [ofInt, ofDecimal, hnegative, decide_false, Bool.false_eq_true, if_false,
    Int.natAbs_natCast, Bool.or_eq_true, decide_eq_true_eq, hlow, hscale, Int.le_refl, if_true,
    Int.toNat_zero, hscientific]

lemma length_toDigits_two_pow {k n : Nat} (h : 4 * ((k + 1) / 13 + 1) ≤ n) :
    (Nat.toDigits 10 (2 ^ k)).length ≤ n :=
  (Nat.length_toDigits_le_iff (by decide) (by omega)).mpr
    ((Nat.pow_lt_pow_succ (by decide)).trans_le (two_pow_le_ten_pow h))

lemma ofInt_two_pow (k : Nat) : ofInt (Nat.pow 2 k) =
    packed (.finite .positive (2 ^ 52) (k - 52) (by decide)) := by
  by_cases hk : k < 53
  · revert k
    decide +kernel
  have hge : 2 ^ 53 ≤ Nat.pow 2 k := Nat.pow_le_pow_right (by decide) (by omega)
  rw [ofInt_eq hge]
  by_cases hlength : 400 < (Nat.toDigits 10 (Nat.pow 2 k)).length
  · have hhuge : 1024 ≤ k := by
      by_contra hsmall
      exact hlength.not_ge (length_toDigits_two_pow (by omega))
    rw [if_pos hlength, packed_of_large (by decide) (by omega)]
    rfl
  · have hfactor : Nat.pow 2 k * 2 ^ 53 = 2 ^ 52 * 2 ^ (k + 1) := by
      rw [Nat.pow_eq, ← Nat.pow_add, ← Nat.pow_add]
      congr 1
      omega
    have hpower : (-53 : Int) = (k : Int) - 52 - (k + 1 : Nat) := by omega
    rw [if_neg hlength, hfactor, hpower, roundWithAccuracy_eq (fits_two_pow k)]

lemma unpacked_two_pow {k : Nat} (hk : k < 1024) : (ofInt (Nat.pow 2 k)).unpacked =
    .finite .positive (2 ^ 52) (k - 52) (by decide) := by
  rw [ofInt_two_pow, unpacked_packed_finite (fits_two_pow k), if_pos (by omega)]

end Powers

section Value

variable (x : Double) {s : Sign} {m : Nat} {e : Int}

def value (x : Double) : ℚ := (if x.isNegative then -1 else 1) * x.factor * 2 ^ x.power

lemma two_zpow_pos (e : Int) : (0 : ℚ) < 2 ^ e := zpow_pos (by norm_num) e

lemma parts_of_unpacked {h : 0 < m} (hx : x.unpacked = .finite s m e h) :
    x.isFinite = true ∧ x.sign = s ∧ x.factor = m ∧ x.power = e := by
  rw [unpacked_eq] at hx
  split at hx
  · split at hx <;> cases hx
  · next htop =>
    split at hx
    · cases hx
    · obtain ⟨hsign, hfactor, hpower⟩ := UnpackedFloat.finite.inj hx
      exact ⟨by simpa [isFinite] using htop, hsign, hfactor, hpower⟩

lemma not_isFinite_of_unpacked (hx : x.unpacked = .infinity s) : x.isFinite = false := by
  rw [unpacked_eq] at hx
  split at hx
  · next htop => simp [isFinite, htop]
  · split at hx <;> cases hx

lemma isFinite_two_pow (k : Nat) : (ofInt (Nat.pow 2 k)).isFinite = decide (k < 1024) := by
  by_cases hk : k < 1024
  · rw [(parts_of_unpacked _ (unpacked_two_pow hk)).1, decide_eq_true hk]
  · have hinfinite : (ofInt (Nat.pow 2 k)).unpacked = .infinity .positive := by
      rw [ofInt_two_pow, packed_of_large (by decide) (by omega), unpacked_packed_infinity]
    rw [not_isFinite_of_unpacked _ hinfinite, decide_eq_false hk]

lemma value_of_unpacked {h : 0 < m} (hx : x.unpacked = .finite s m e h) :
    x.isFinite = true ∧ x.value = s.apply 1 * (m * 2 ^ e) := by
  obtain ⟨hfinite, hsign, hfactor, hpower⟩ := x.parts_of_unpacked hx
  have hvalue : x.value = x.sign.apply 1 * (x.factor * 2 ^ x.power) := by
    rw [value, sign, mul_assoc]
    split <;> simp [Sign.apply]
  rw [hvalue, hsign, hfactor, hpower]
  exact ⟨hfinite, rfl⟩

lemma value_two_pow {k : Nat} (hk : k < 1024) : (ofInt (Nat.pow 2 k)).value = 2 ^ k := by
  rw [(value_of_unpacked _ (unpacked_two_pow hk)).2, Sign.apply, Int.cast_one, one_mul,
    Nat.cast_pow, Nat.cast_ofNat, ← zpow_natCast, ← zpow_natCast, ← zpow_add₀ (by norm_num)]
  congr 1
  omega

lemma value_of_zero (h : x.factor = 0) : x.value = 0 := by
  rw [value, h, Nat.cast_zero, mul_zero, zero_mul]

lemma unpacked_mul_two_pow (h : Fits m e) (hx : x.unpacked = .finite s m e h.pos) {k : Nat}
    (hk : k < 1024) : ∃ n f, ∃ h' : Fits n f, (n : ℚ) * 2 ^ f = m * 2 ^ e * 2 ^ k ∧
      (x.mul (ofInt (Nat.pow 2 k))).unpacked =
        if f ≤ 971 then .finite s n f h'.pos else .infinity s := by
  have hsign : s * .positive = s := by cases s <;> rfl
  obtain ⟨i, hi, hik, hfits⟩ := h.doubled k
  refine ⟨_, _, hfits, ?_, ?_⟩
  · have hexponent : ((k - i : Nat) : Int) = k - i := by omega
    rw [hexponent, zpow_add₀ (by norm_num), zpow_sub₀ (by norm_num), zpow_natCast, zpow_natCast]
    push_cast
    field_simp
  · have hfactor : m * 2 ^ 52 = m * 2 ^ i * 2 ^ (52 - i) := by
      rw [Nat.mul_assoc, ← Nat.pow_add]
      congr 2
      omega
    have hexponent : e + (k - 52) = e + (k - i : Nat) - (52 - i : Nat) := by omega
    rw [← unpacked_packed_finite hfits, mul_eq, unpacked_two_pow hk, hx, UnpackedFloat.mul, hsign,
      hfactor, hexponent, roundWithAccuracy_eq hfits]

lemma unpacked_zero_mul_two_pow (hx : x.unpacked = .zero s) {k : Nat} (hk : k < 1024) :
    (x.mul (ofInt (Nat.pow 2 k))).unpacked = .zero (s * .positive) := by
  rw [mul_eq, unpacked_two_pow hk, hx]
  exact unpacked_packed_zero _

lemma zero_of_unpacked (hx : x.unpacked = .zero s) : x.isFinite = true ∧ x.value = 0 := by
  rw [unpacked_eq] at hx
  split at hx
  · split at hx <;> cases hx
  · next htop =>
    split at hx
    · next hzero => exact ⟨by simpa [isFinite] using htop, x.value_of_zero hzero⟩
    · cases hx

lemma abs_value_lt (hfinite : x.isFinite = true) : |x.value| < 2 ^ (1024 : Int) := by
  have hfactor : (x.factor : ℚ) < 2 ^ (53 : Int) := by exact_mod_cast x.factor_lt
  have hpower : (2 : ℚ) ^ x.power ≤ 2 ^ (971 : Int) :=
    zpow_le_zpow_right₀ (by norm_num) (x.power_le hfinite)
  have habs : |x.value| = x.factor * 2 ^ x.power := by
    rw [value, abs_mul, abs_mul, abs_of_pos (two_zpow_pos _), Nat.abs_cast]
    split <;> simp
  calc |x.value| = x.factor * 2 ^ x.power := habs
    _ < 2 ^ (53 : Int) * 2 ^ (971 : Int) :=
      mul_lt_mul hfactor hpower (two_zpow_pos _) (two_zpow_pos _).le
    _ = 2 ^ (1024 : Int) := (zpow_add₀ (by norm_num) 53 971).symm

lemma Fits.value_lt {n : Nat} {f : Int} (h : Fits m e) (h' : Fits n f) (hef : e < f) :
    (m : ℚ) * 2 ^ e < n * 2 ^ f := by
  have hleast := h.least
  have hfull : 2 ^ 52 ≤ n := h'.full.resolve_right (by omega)
  have hm : (m : ℚ) < 2 ^ 53 := by exact_mod_cast h.lt
  have hn : (2 : ℚ) ^ 52 ≤ n := by exact_mod_cast hfull
  calc (m : ℚ) * 2 ^ e < 2 ^ 53 * 2 ^ e := mul_lt_mul_of_pos_right hm (two_zpow_pos e)
    _ = 2 ^ 52 * 2 ^ (e + 1) := by rw [zpow_add_one₀ (by norm_num)]; ring
    _ ≤ 2 ^ 52 * 2 ^ f :=
      mul_le_mul_of_nonneg_left (zpow_le_zpow_right₀ (by norm_num) hef) (by norm_num)
    _ ≤ n * 2 ^ f := mul_le_mul_of_nonneg_right hn (two_zpow_pos f).le

lemma Fits.value_lt_iff {n : Nat} {f : Int} (h : Fits m e) (h' : Fits n f) :
    (m : ℚ) * 2 ^ e < n * 2 ^ f ↔ ((compare e f).then (compare m n)) = .lt := by
  rw [Ordering.then_eq_lt, compare_lt_iff_lt, compare_eq_iff_eq, compare_lt_iff_lt]
  rcases lt_trichotomy e f with hef | rfl | hef
  · exact iff_of_true (h.value_lt h' hef) (Or.inl hef)
  · rw [mul_lt_mul_iff_left₀ (two_zpow_pos e), Nat.cast_lt]
    simp
  · refine iff_of_false (h'.value_lt h hef).not_gt ?_
    omega

lemma Fits.value_pos (h : Fits m e) : (0 : ℚ) < m * 2 ^ e :=
  mul_pos (Nat.cast_pos.mpr h.pos) (two_zpow_pos e)

lemma finite_cases (hfinite : x.isFinite = true) :
    (∃ s, x.unpacked = .zero s ∧ x.value = 0) ∨
      (∃ m e, ∃ h : Fits m e, x.unpacked = .finite .negative m e h.pos ∧
        x.value = -(m * 2 ^ e)) ∨
      ∃ m e, ∃ h : Fits m e, x.unpacked = .finite .positive m e h.pos ∧ x.value = m * 2 ^ e := by
  have hunpacked := x.unpacked_of_finite hfinite
  by_cases hzero : x.factor = 0
  · rw [dif_pos hzero] at hunpacked
    exact Or.inl ⟨x.sign, hunpacked, x.value_of_zero hzero⟩
  · have hfits := x.fits hfinite hzero
    rw [dif_neg hzero] at hunpacked
    obtain ⟨-, hvalue⟩ := x.value_of_unpacked hunpacked
    right
    cases hsign : x.sign with
    | negative =>
      rw [hsign] at hunpacked hvalue
      refine Or.inl ⟨x.factor, x.power, hfits, hunpacked, ?_⟩
      rw [hvalue, Sign.apply, Int.cast_neg, Int.cast_one, neg_one_mul]
    | positive =>
      rw [hsign] at hunpacked hvalue
      refine Or.inr ⟨x.factor, x.power, hfits, hunpacked, ?_⟩
      rw [hvalue, Sign.apply, Int.cast_one, one_mul]

lemma lt_iff_value_lt {y : Double} (hx : x.isFinite = true) (hy : y.isFinite = true) :
    x.lt y = true ↔ x.value < y.value := by
  rw [lt_eq]
  -- nought, negative, positive; only of two with one sign the exponents and factors decide
  obtain ⟨s, hs, hv⟩ | ⟨m, e, h, hs, hv⟩ | ⟨m, e, h, hs, hv⟩ := x.finite_cases hx
  · obtain ⟨t, ht, hw⟩ | ⟨n, f, h', ht, hw⟩ | ⟨n, f, h', ht, hw⟩ := y.finite_cases hy
    · rw [hs, hv, ht, hw]
      exact iff_of_false Bool.false_ne_true (lt_irrefl 0)
    · rw [hs, hv, ht, hw]
      exact iff_of_false Bool.false_ne_true (not_lt.mpr (neg_nonpos.mpr h'.value_pos.le))
    · rw [hs, hv, ht, hw]
      exact iff_of_true rfl h'.value_pos
  · obtain ⟨t, ht, hw⟩ | ⟨n, f, h', ht, hw⟩ | ⟨n, f, h', ht, hw⟩ := y.finite_cases hy
    · rw [hs, hv, ht, hw]
      exact iff_of_true rfl (neg_neg_of_pos h.value_pos)
    · rw [hs, hv, ht, hw, neg_lt_neg_iff, h'.value_lt_iff h, ← Int.compare_swap e,
        ← Nat.compare_swap m, ← Ordering.swap_then]
      exact beq_iff_eq.trans (Option.some_inj)
    · rw [hs, hv, ht, hw]
      exact iff_of_true rfl ((neg_neg_of_pos h.value_pos).trans h'.value_pos)
  · obtain ⟨t, ht, hw⟩ | ⟨n, f, h', ht, hw⟩ | ⟨n, f, h', ht, hw⟩ := y.finite_cases hy
    · rw [hs, hv, ht, hw]
      exact iff_of_false Bool.false_ne_true h.value_pos.le.not_gt
    · rw [hs, hv, ht, hw]
      exact iff_of_false Bool.false_ne_true
        ((neg_neg_of_pos h'.value_pos).trans h.value_pos).le.not_gt
    · rw [hs, hv, ht, hw, h.value_lt_iff h']
      exact beq_iff_eq.trans (Option.some_inj)

/-- A number is worth so much, or it is infinite and so much is out of reach. -/
def Represents (x : Double) (q : ℚ) : Prop :=
  (x.isFinite = true ∧ x.value = q) ∨
    (x.unpacked = .infinity .negative ∧ q ≤ -2 ^ (1024 : Int)) ∨
    (x.unpacked = .infinity .positive ∧ 2 ^ (1024 : Int) ≤ q)

lemma Fits.le_value (h : Fits m e) (he : 971 < e) : (2 : ℚ) ^ (1024 : Int) ≤ m * 2 ^ e := by
  have hfull : 2 ^ 52 ≤ m := h.full.resolve_right (by omega)
  have hm : (2 : ℚ) ^ (52 : Int) ≤ m := by exact_mod_cast hfull
  calc (2 : ℚ) ^ (1024 : Int) = 2 ^ (52 : Int) * 2 ^ (972 : Int) := zpow_add₀ (by norm_num) 52 972
    _ ≤ m * 2 ^ e := mul_le_mul hm (zpow_le_zpow_right₀ (by norm_num) he) (two_zpow_pos _).le
      (Nat.cast_nonneg m)

lemma represents_mul_two_pow (hfinite : x.isFinite = true) {k : Nat} (hk : k < 1024) :
    (x.mul (ofInt (Nat.pow 2 k))).Represents (x.value * 2 ^ k) := by
  have hx := x.unpacked_of_finite hfinite
  by_cases hzero : x.factor = 0
  · rw [dif_pos hzero] at hx
    rw [x.value_of_zero hzero, zero_mul]
    exact Or.inl (zero_of_unpacked _ (x.unpacked_zero_mul_two_pow hx hk))
  · rw [dif_neg hzero] at hx
    obtain ⟨n, f, h, hnf, hp⟩ := x.unpacked_mul_two_pow (x.fits hfinite hzero) hx hk
    rw [(x.value_of_unpacked hx).2, mul_assoc, ← hnf]
    split at hp
    · exact Or.inl (value_of_unpacked _ hp)
    · have hle := h.le_value (by omega)
      right
      cases hsign : x.sign with
      | negative =>
        rw [hsign] at hp
        refine Or.inl ⟨hp, ?_⟩
        rw [Sign.apply, Int.cast_neg, Int.cast_one, neg_one_mul]
        exact neg_le_neg hle
      | positive =>
        rw [hsign] at hp
        refine Or.inr ⟨hp, ?_⟩
        rwa [Sign.apply, Int.cast_one, one_mul]

def lesser (x y : Double) : Double := if y.lt x then y else x

lemma lt_infinity {y : Double} (hx : x.isFinite = true) (hy : y.unpacked = .infinity s) :
    x.lt y = true ↔ s = .positive := by
  rw [lt_eq, hy]
  cases s with
  | negative =>
    refine iff_of_false ?_ nofun
    obtain ⟨t, ht, -⟩ | ⟨m, e, h, ht, -⟩ | ⟨m, e, h, ht, -⟩ := x.finite_cases hx <;>
      exact ht ▸ Bool.false_ne_true
  | positive =>
    refine iff_of_true ?_ rfl
    obtain ⟨t, ht, -⟩ | ⟨m, e, h, ht, -⟩ | ⟨m, e, h, ht, -⟩ := x.finite_cases hx <;>
      exact ht ▸ rfl

lemma Represents.lesser {x y : Double} {q : ℚ} (h : x.Represents q) (hy : y.isFinite = true) :
    ((lesser x y).isFinite = true → (lesser x y).value = min q y.value) ∧
    (0 ≤ q → (lesser x y).isFinite = true) := by
  have hbound := abs_lt.mp (y.abs_value_lt hy)
  rw [Double.lesser]
  obtain ⟨hx, rfl⟩ | ⟨hx, hq⟩ | ⟨hx, hq⟩ := h
  · simp only [y.lt_iff_value_lt hy hx]
    split
    · next hlt => exact ⟨fun _ => (min_eq_right hlt.le).symm, fun _ => hy⟩
    · next hlt => exact ⟨fun _ => (min_eq_left (not_lt.mp hlt)).symm, fun _ => hx⟩
  · have hlt := mt (y.lt_infinity hy hx).mp nofun
    have hinfinite := x.not_isFinite_of_unpacked hx
    rw [if_neg hlt]
    refine ⟨fun hfinite => ?_, fun hq' => ?_⟩
    · rw [hinfinite] at hfinite
      cases hfinite
    · have hneg : -(2 : ℚ) ^ (1024 : Int) < 0 := neg_neg_of_pos (two_zpow_pos _)
      exact absurd (hq'.trans hq) hneg.not_ge
  · rw [if_pos ((y.lt_infinity hy hx).mpr rfl)]
    exact ⟨fun _ => (min_eq_right (hbound.2.le.trans hq)).symm, fun _ => hy⟩

end Value

end Tablewright.Double
