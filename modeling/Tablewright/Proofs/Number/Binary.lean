import Mathlib
import Tablewright.Proofs.Number.Shortest

/-! Numbers in double precision, taken apart by the arithmetic and put together again. A finite
number other than nought has a factor that is full, or the least exponent there is; what would need
an exponent beyond the greatest becomes infinite. -/

namespace Tablewright.Double

open Float.Model (Format UnpackedFloat)
open Float.Model.UnpackedFloat

section Bits

lemma toNat_unpackMantissa (b : BitVec 64) :
    (@unpackMantissa Format.binary64 b).toNat = b.toNat % 2 ^ 52 := by
  rw [unpackMantissa, BitVec.toNat_cast, BitVec.extractLsb_toNat, Nat.shiftRight_zero]
  rfl

lemma toNat_unpackExponent (b : BitVec 64) :
    (@unpackExponent Format.binary64 b).toNat = b.toNat / 2 ^ 52 % 2 ^ 11 := by
  rw [unpackExponent, BitVec.toNat_cast, BitVec.extractLsb_toNat, Nat.shiftRight_eq_div_pow]
  rfl

lemma toNat_unpackSign (b : BitVec 64) :
    (@unpackSign Format.binary64 b).toNat = b.toNat / 2 ^ 63 % 2 := by
  rw [unpackSign, BitVec.toNat_cast, BitVec.extractLsb_toNat, Nat.shiftRight_eq_div_pow]
  rfl

variable (x : Double)

lemma fraction_eq : x.fraction = x.bits.toNat % 2 ^ 52 := by
  rw [fraction, UInt64.toNat_and]
  exact Nat.and_two_pow_sub_one_eq_mod x.bits.toNat 52

lemma exponentBits_eq : x.exponentBits = x.bits.toNat / 2 ^ 52 % 2 ^ 11 := by
  rw [exponentBits, UInt64.toNat_and, UInt64.toNat_shiftRight, Nat.shiftRight_eq_div_pow]
  exact Nat.and_two_pow_sub_one_eq_mod _ 11

lemma isNegative_iff : x.isNegative = true ↔ x.bits.toNat / 2 ^ 63 = 1 := by
  rw [isNegative, beq_iff_eq, ← UInt64.toNat_inj, UInt64.toNat_shiftRight,
    Nat.shiftRight_eq_div_pow]
  rfl

def sign (x : Double) : Sign := if x.isNegative then .negative else .positive

def unpacked (x : Double) : UnpackedFloat := unpack Format.binary64 x.bits.toBitVec

lemma sign_eq : Sign.ofBitVec (@unpackSign Format.binary64 x.bits.toBitVec) = x.sign := by
  have hbits := toNat_unpackSign x.bits.toBitVec
  have hlt : x.bits.toNat < 2 ^ 64 := x.bits.toNat_lt
  rw [Sign.ofBitVec, sign]
  by_cases h : x.bits.toNat / 2 ^ 63 = 1
  · rw [if_pos (x.isNegative_iff.mpr h), if_neg]
    intro hzero
    rw [hzero] at hbits
    change 0 = x.bits.toNat / 2 ^ 63 % 2 at hbits
    omega
  · rw [if_neg (mt x.isNegative_iff.mp h), if_pos]
    refine BitVec.eq_of_toNat_eq (hbits.trans ?_)
    change x.bits.toNat / 2 ^ 63 % 2 = 0
    omega

lemma toNat_append {n k : Nat} (a : BitVec n) (b : BitVec k) :
    (a ++ b).toNat = a.toNat * 2 ^ k + b.toNat := by
  rw [BitVec.toNat_append, ← Nat.shiftLeft_add_eq_or_of_lt b.isLt, Nat.shiftLeft_eq]

lemma unpacked_eq : x.unpacked =
    if x.exponentBits = 2047 then
      if x.fraction = 0 then .infinity x.sign else .notANumber
    else if h : x.factor = 0 then .zero x.sign
    else .finite x.sign x.factor x.power (Nat.pos_of_ne_zero h) := by
  have hfraction : (@unpackMantissa Format.binary64 x.bits.toBitVec).toNat = x.fraction :=
    (toNat_unpackMantissa _).trans x.fraction_eq.symm
  have hexponent : (@unpackExponent Format.binary64 x.bits.toBitVec).toNat = x.exponentBits :=
    (toNat_unpackExponent _).trans x.exponentBits_eq.symm
  have hall : @unpackExponent Format.binary64 x.bits.toBitVec = -1#_ ↔ x.exponentBits = 2047 := by
    rw [← hexponent, ← BitVec.toNat_inj]
    rfl
  have hnone : @unpackExponent Format.binary64 x.bits.toBitVec = 0#_ ↔ x.exponentBits = 0 := by
    rw [← hexponent, ← BitVec.toNat_inj]
    rfl
  have hempty : @unpackMantissa Format.binary64 x.bits.toBitVec = 0#_ ↔ x.fraction = 0 := by
    rw [← hfraction, ← BitVec.toNat_inj]
    rfl
  rw [unpacked, unpack]
  simp only [hall, hnone, hempty, sign_eq, toNat_append, hfraction, hexponent]
  by_cases htop : x.exponentBits = 2047
  · simp only [if_pos htop]
  · simp only [if_neg htop]
    by_cases hbottom : x.exponentBits = 0
    · have hfactor : x.factor = x.fraction := if_pos hbottom
      have hpower : x.power = -1074 := if_pos hbottom
      simp only [hfactor, hpower, hbottom]
      rfl
    · have hfactor : x.factor = 2 ^ 52 + x.fraction := if_neg hbottom
      have hpower : x.power = x.exponentBits - 1075 := if_neg hbottom
      simp only [if_neg hbottom, hfactor, hpower]
      rw [dif_neg (by omega)]
      rfl

end Bits

section Packing

variable {s : Sign} {m : Nat} {e : Int}

/-- A factor with the exponent that goes with it: it is full, or as far down as there is. -/
structure Fits (m : Nat) (e : Int) : Prop where
  pos : 0 < m
  lt : m < 2 ^ 53
  least : -1074 ≤ e
  full : 2 ^ 52 ≤ m ∨ e = -1074

lemma parts_eq {x : Double} {b : BitVec 11} {f : BitVec 52}
    (h : x.bits.toBitVec = packComponents Format.binary64 s b f) :
    x.sign = s ∧ x.exponentBits = b.toNat ∧ x.fraction = f.toNat := by
  have hbits : x.bits.toNat = (s.toBitVec.toNat * 2 ^ 11 + b.toNat) * 2 ^ 52 + f.toNat := by
    rw [← UInt64.toNat_toBitVec, h, packComponents, toNat_append, toNat_append]
  have hf := f.isLt
  have hb := b.isLt
  refine ⟨?_, ?_, ?_⟩
  · rw [sign]
    cases s with
    | negative =>
      have hs : Sign.negative.toBitVec.toNat = 1 := rfl
      rw [if_pos (x.isNegative_iff.mpr (by omega))]
    | positive =>
      have hs : Sign.positive.toBitVec.toNat = 0 := rfl
      rw [if_neg (mt x.isNegative_iff.mp (by omega))]
  · rw [exponentBits_eq]
    omega
  · rw [fraction_eq]
    omega

def packed (f : UnpackedFloat) : Double := ⟨UInt64.ofBitVec (pack Format.binary64 f)⟩

lemma unpacked_of_parts {x : Double} {b : BitVec 11} {f : BitVec 52}
    (h : x.bits.toBitVec = packComponents Format.binary64 s b f) : x.unpacked =
      if b.toNat = 2047 then if f.toNat = 0 then .infinity s else .notANumber
      else if h : (if b.toNat = 0 then f.toNat else 2 ^ 52 + f.toNat) = 0 then .zero s
      else .finite s (if b.toNat = 0 then f.toNat else 2 ^ 52 + f.toNat)
        (if b.toNat = 0 then -1074 else b.toNat - 1075) (Nat.pos_of_ne_zero h) := by
  obtain ⟨hsign, hexponent, hfraction⟩ := parts_eq h
  have hfactor : x.factor = if b.toNat = 0 then f.toNat else 2 ^ 52 + f.toNat := by
    rw [factor, hexponent, hfraction]
    rfl
  have hpower : x.power = if b.toNat = 0 then -1074 else (b.toNat : Int) - 1075 := by
    rw [power, hexponent]
  rw [unpacked_eq]
  simp only [hsign, hexponent, hfraction, hfactor, hpower]

lemma unpacked_packed_infinity (s : Sign) : (packed (.infinity s)).unpacked = .infinity s :=
  unpacked_of_parts (s := s) (b := -1#_) (f := 0) rfl

lemma unpacked_packed_zero (s : Sign) : (packed (.zero s)).unpacked = .zero s :=
  unpack_packedZero

lemma unpacked_packed_notANumber : (packed .notANumber).unpacked = .notANumber :=
  unpack_packedNaN

lemma Fits.log2_eq (h : Fits m e) : m.log2 = 52 ∨ m.log2 < 52 ∧ e = -1074 := by
  by_cases hfull : 2 ^ 52 ≤ m
  · exact Or.inl ((Nat.log2_eq_iff h.pos.ne').mpr ⟨hfull, h.lt⟩)
  · exact Or.inr ⟨(Nat.log2_lt h.pos.ne').mpr (by omega), h.full.resolve_left hfull⟩

lemma packed_of_large (hpos : 0 < m) (h : 971 < e) :
    packed (.finite s m e hpos) = packed (.infinity s) := by
  have hbiased : Format.binary64.exponentBias = 1023 := rfl
  rw [packed, pack, if_pos]
  · rfl
  · rw [hbiased]
    change 2 ^ 11 ≤ (e + 1023 + 52).toNat + 1
    omega

lemma unpacked_packed_finite (h : Fits m e) : (packed (.finite s m e h.pos)).unpacked =
    if e ≤ 971 then .finite s m e h.pos else .infinity s := by
  have hpacked : (packed (.finite s m e h.pos)).bits.toBitVec =
      if 2 ^ 11 ≤ (e + 1023 + 52).toNat + 1 then packedInfinity Format.binary64 s
      else if m.log2 + 1 = 53 then
        packComponents Format.binary64 s (.ofNat 11 (e + 1023 + 52).toNat) (.ofNat 52 m)
      else packComponents Format.binary64 s 0#11 (.ofNat 52 m) := rfl
  obtain ⟨hpos, hlt, hleast, -⟩ := id h
  by_cases hlarge : e ≤ 971
  · rw [if_neg (by omega)] at hpacked
    rw [if_pos hlarge]
    -- a full factor is kept without its first bit; any other is there as it is, with no exponent
    obtain hfull | ⟨hlow, hbottom⟩ := h.log2_eq
    · rw [if_pos (by omega)] at hpacked
      have hle : 2 ^ 52 ≤ m := ((Nat.log2_eq_iff hpos.ne').mp hfull).1
      have hb : (BitVec.ofNat 11 (e + 1023 + 52).toNat).toNat = (e + 1023 + 52).toNat := by
        rw [BitVec.toNat_ofNat]
        omega
      have hf : (BitVec.ofNat 52 m).toNat = m - 2 ^ 52 := by
        rw [BitVec.toNat_ofNat]
        omega
      have hfactor : 2 ^ 52 + (m - 2 ^ 52) = m := by omega
      have hpower : ((e + 1023 + 52).toNat : Int) - 1075 = e := by omega
      have hneither : (e + 1023 + 52).toNat ≠ 2047 ∧ (e + 1023 + 52).toNat ≠ 0 := by omega
      rw [unpacked_of_parts hpacked]
      simp only [hb, hf, if_neg hneither.1, if_neg hneither.2, hfactor, hpower, dif_neg hpos.ne']
    · rw [if_neg (by omega)] at hpacked
      have hlt : m < 2 ^ 52 := (Nat.log2_lt hpos.ne').mp hlow
      have hb : (0#11).toNat = 0 := rfl
      have hf : (BitVec.ofNat 52 m).toNat = m := by
        rw [BitVec.toNat_ofNat]
        omega
      have htop : (0 : Nat) ≠ 2047 := by decide
      rw [unpacked_of_parts hpacked]
      simp only [hb, hf, if_neg htop, if_true, dif_neg hpos.ne', hbottom]
  · rw [if_neg hlarge, packed_of_large h.pos (by omega), unpacked_packed_infinity]

end Packing

section Arithmetic

variable (x y : Double) {m : Nat} {e : Int}

lemma fits (hfinite : x.isFinite = true) (h : x.factor ≠ 0) : Fits x.factor x.power := by
  have hbits : x.exponentBits ≠ 2047 := by simpa [isFinite] using hfinite
  have hunit : Nat.pow 2 52 = 2 ^ 52 := rfl
  have hfraction := x.fraction_lt
  rw [factor] at h
  rw [factor, power]
  split at h
  · next hbottom =>
    rw [if_pos hbottom, if_pos hbottom]
    exact ⟨by omega, by omega, by omega, Or.inr rfl⟩
  · next hbottom =>
    rw [if_neg hbottom, if_neg hbottom]
    exact ⟨by omega, by omega, by omega, Or.inl (by omega)⟩

lemma power_le (hfinite : x.isFinite = true) : x.power ≤ 971 := by
  have hbits : x.exponentBits ≠ 2047 := by simpa [isFinite] using hfinite
  have hle := x.exponentBits_le
  rw [power]
  split <;> omega

lemma unpacked_of_finite (hfinite : x.isFinite = true) : x.unpacked =
    if h : x.factor = 0 then .zero x.sign
    else .finite x.sign x.factor x.power (Nat.pos_of_ne_zero h) := by
  have hbits : x.exponentBits ≠ 2047 := by simpa [isFinite] using hfinite
  rw [unpacked_eq, if_neg hbits]

lemma unpacked_packed_unpacked : (packed x.unpacked).unpacked = x.unpacked := by
  rw [x.unpacked_eq]
  by_cases htop : x.exponentBits = 2047
  · rw [if_pos htop]
    split
    · exact unpacked_packed_infinity x.sign
    · exact unpacked_packed_notANumber
  · rw [if_neg htop]
    have hfinite : x.isFinite = true := by simpa [isFinite] using htop
    split
    · exact unpacked_packed_zero x.sign
    · next h => rw [unpacked_packed_finite (x.fits hfinite h), if_pos (x.power_le hfinite)]

lemma mul_eq : x.mul y =
    packed (Float.Model.UnpackedFloat.mul Format.binary64 x.unpacked y.unpacked) := by
  rw [← x.unpacked_packed_unpacked, ← y.unpacked_packed_unpacked]
  rfl

lemma lt_eq : x.lt y = UnpackedFloat.lt x.unpacked y.unpacked := by
  rw [← x.unpacked_packed_unpacked, ← y.unpacked_packed_unpacked, lt,
    Bool.eq_iff_iff, decide_eq_true_iff]
  exact decide_eq_true_iff

end Arithmetic

end Tablewright.Double
