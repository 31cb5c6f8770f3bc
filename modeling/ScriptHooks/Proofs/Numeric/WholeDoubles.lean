/-
ScriptHooks.Proofs.Numeric.WholeDoubles — whole numbers of up to 53 bits are exact doubles.

Numbers of scripts are doubles, and integers of JSON become doubles on the way. A script that only
hands a number on should give it back.

A positive whole number below `2^53` is a mantissa of 53 bits after a shift by the bits that it
lacks. Rounding leaves such a mantissa alone (`roundWithAccuracy_wide`), and packing keeps it
(`unpack_pack_wide`), so the double of the number is this mantissa (`ofNat_eq`), and its whole
part is the number again (`truncate_ofInt`).

Doubles are what their bits say: sign, exponent and mantissa in one word. `IsDouble x sign m k` says
that a double is the mantissa `m` behind a shift by `k`, in terms of what the program takes from the
bits, so that the last part is arithmetic of natural numbers. Only mantissas that are wide enough
have a canonical form; that is why every number is first brought to 53 bits (`lacking`).

Zero has no such mantissa and is a case of its own. Both signs go through the same lemmas.
-/
import Mathlib
import ScriptHooks.Numeric.Integral

namespace ScriptHooks.Numeric

open Float.Model Float.Model.UnpackedFloat

/-! ## Mantissas of 53 bits -/

/-- The number has 53 bits. -/
def IsWide (m : Nat) : Prop := 2 ^ 52 ≤ m ∧ m < 2 ^ 53

theorem IsWide.pos {m : Nat} (h : IsWide m) : 0 < m := Nat.lt_of_lt_of_le (by decide) h.1

/-- A wide mantissa has 53 bits. -/
theorem IsWide.log2 {m : Nat} (h : IsWide m) : m.log2 = 52 :=
  (Nat.log2_eq_iff h.pos.ne').mpr h

/-- Nothing but zeros is shifted out. -/
theorem shiftRight_exact (m k : Nat) :
    (ExtendedMantissa.mk (m * 2 ^ k) false false) >>> k = ⟨m, false, false⟩ := by
  change k.repeat ExtendedMantissa.shiftRightOne ⟨m * 2 ^ k, false, false⟩ = _
  induction k generalizing m with
  | zero => simp [Nat.repeat]
  | succ k ih =>
    have heven : m * 2 ^ (k + 1) = m * 2 * 2 ^ k := by
      rw [Nat.pow_succ', Nat.mul_assoc]
    rw [Nat.repeat, heven, ih]
    simp [ExtendedMantissa.shiftRightOne]

/-- A wide mantissa with more bits behind it, all of them zero, is shifted to its place. -/
theorem shiftToTargetExponent_wide {m : Nat} (h : IsWide m) {e : Int} (he : -1074 ≤ e) (k : Nat) :
    shiftToTargetExponent Format.binary64 (m * 2 ^ k) (e - k) .exact = (⟨m, false, false⟩, e) := by
  have hlog : (m * 2 ^ k).log2 = 52 + k := by
    refine (Nat.log2_eq_iff (Nat.mul_pos h.pos (Nat.two_pow_pos k)).ne').mpr ?_
    rw [Nat.pow_add, show 52 + k + 1 = 53 + k by omega, Nat.pow_add]
    exact ⟨Nat.mul_le_mul_right _ h.1, Nat.mul_lt_mul_of_pos_right h.2 (Nat.two_pow_pos k)⟩
  have htarget : Format.binary64.targetExponent (totalExponent (m * 2 ^ k) (e - k)) = e := by
    simp only [Format.targetExponent, totalExponent, hlog, Format.mantissaBits, Format.minExponent]
    norm_num
    omega
  have hshift : (e - (e - k)).toNat = k := by omega
  simp only [shiftToTargetExponent, htarget, shiftToExponent, hshift,
    ExtendedMantissa.ofMantissaAndAccuracy, shiftRight_exact]
  simp

/-- Rounding leaves a wide mantissa alone. -/
theorem roundWithAccuracy_wide {m : Nat} (h : IsWide m) {e : Int} (he : -1074 ≤ e) (k : Nat)
    (sign : Sign) :
    roundWithAccuracy Format.binary64 sign (m * 2 ^ k) (e - k) .exact =
      .finite sign m e h.pos := by
  have hagain := shiftToTargetExponent_wide h he 0
  simp only [Nat.pow_zero, Nat.mul_one, Int.natCast_zero, Int.sub_zero] at hagain
  rw [roundWithAccuracy, shiftToTargetExponent_wide h he k]
  simp only [ExtendedMantissa.roundedMantissa, ExtendedMantissa.accuracy,
    Accuracy.roundToNearestEven, hagain, dif_neg h.pos.ne']

/-! ## Bits -/

/-- A wide mantissa is packed with its exponent. -/
theorem pack_wide {m : Nat} (h : IsWide m) {e : Int} (hlow : -1074 ≤ e) (hhigh : e ≤ 0)
    (sign : Sign) :
    UnpackedFloat.pack Format.binary64 (.finite sign m e h.pos) =
      packComponents Format.binary64 sign (BitVec.ofNat 11 (e + 1075).toNat)
        (BitVec.ofNat 52 m) := by
  have hbias : (e + (Format.binary64.exponentBias : Int) +
      (Format.binary64.mantissaBitsWithoutImplicit : Nat)).toNat = (e + 1075).toNat := by
    norm_num [Format.exponentBias]
    omega
  rw [UnpackedFloat.pack]
  simp only [hbias, h.log2]
  rw [if_neg (by norm_num; omega), if_pos (by decide)]

/-- The bits of a wide mantissa: sign, exponent, and the mantissa without its first bit. -/
theorem toNat_pack_wide {m : Nat} (h : IsWide m) {e : Int} (hlow : -1074 ≤ e) (hhigh : e ≤ 0)
    (sign : Sign) :
    (UnpackedFloat.pack Format.binary64 (.finite sign m e h.pos)).toNat =
      sign.toBitVec.toNat * 2 ^ 63 + (e + 1075).toNat * 2 ^ 52 + (m - 2 ^ 52) := by
  have hexponent : (BitVec.ofNat 11 (e + 1075).toNat).toNat = (e + 1075).toNat := by
    rw [BitVec.toNat_ofNat, Nat.mod_eq_of_lt (by norm_num; omega)]
  have hfraction : (BitVec.ofNat 52 m).toNat = m - 2 ^ 52 := by
    rw [BitVec.toNat_ofNat]
    obtain ⟨hm, hm'⟩ := h
    omega
  have hlt : m - 2 ^ 52 < 2 ^ 52 := by
    obtain ⟨hm, hm'⟩ := h
    omega
  have hlt' : (e + 1075).toNat < 2 ^ 11 := by norm_num; omega
  rw [pack_wide h hlow hhigh, packComponents, BitVec.toNat_append, BitVec.toNat_append, hexponent,
    hfraction, ← Nat.shiftLeft_add_eq_or_of_lt hlt, ← Nat.shiftLeft_add_eq_or_of_lt hlt',
    Nat.shiftLeft_eq, Nat.shiftLeft_eq]
  norm_num
  omega

theorem unpackSign_packComponents {format : Format} {sign : Sign}
    {exponent : BitVec format.exponentBits}
    {mantissa : BitVec format.mantissaBitsWithoutImplicit} :
    unpackSign (packComponents format sign exponent mantissa) = sign.toBitVec := by
  refine BitVec.eq_of_getLsbD_eq fun i hi => ?_
  obtain rfl : i = 0 := by omega
  simp [unpackSign, packComponents, BitVec.getLsbD_append, BitVec.getElem_append]

/-- Packing keeps a wide mantissa. -/
theorem unpack_pack_wide {m : Nat} (h : IsWide m) {e : Int} (hlow : -1074 ≤ e) (hhigh : e ≤ 0)
    (sign : Sign) :
    UnpackedFloat.unpack Format.binary64
        (UnpackedFloat.pack Format.binary64 (.finite sign m e h.pos)) =
      .finite sign m e h.pos := by
  have hexponent : (BitVec.ofNat 11 (e + 1075).toNat).toNat = (e + 1075).toNat := by
    rw [BitVec.toNat_ofNat, Nat.mod_eq_of_lt (by norm_num; omega)]
  have hones : BitVec.ofNat 11 (e + 1075).toNat ≠ -1#11 := by
    intro heq
    have := congrArg BitVec.toNat heq
    rw [hexponent] at this
    norm_num at this
    omega
  have hzero : BitVec.ofNat 11 (e + 1075).toNat ≠ 0#11 := by
    intro heq
    have := congrArg BitVec.toNat heq
    rw [hexponent] at this
    norm_num at this
    omega
  have hmantissa : (1#1 ++ BitVec.ofNat 52 m).toNat = m := by
    obtain ⟨hm, hm'⟩ := h
    rw [BitVec.toNat_append, ← Nat.shiftLeft_add_eq_or_of_lt (BitVec.isLt _), BitVec.toNat_ofNat,
      BitVec.toNat_ofNat, Nat.shiftLeft_eq]
    omega
  have hsign : Sign.ofBitVec sign.toBitVec = sign := by cases sign <;> rfl
  rw [pack_wide h hlow hhigh, UnpackedFloat.unpack]
  simp only [unpackExponent_packComponents, unpackMantissa_packComponents,
    unpackSign_packComponents, if_neg hones, if_neg hzero, hmantissa, hexponent, hsign]
  congr 1
  norm_num [Format.exponentBias]
  omega

/-! ## Whole numbers -/

def lacking (n : Nat) : Nat := 52 - n.log2

theorem lacking_le (n : Nat) : lacking n ≤ 52 := Nat.sub_le _ _

/-- With the bits that it lacks, a number is a wide mantissa. -/
theorem isWide_lacking {n : Nat} (hpos : 0 < n) (hlt : n < 2 ^ 53) :
    IsWide (n * 2 ^ lacking n) := by
  obtain ⟨hlow, hhigh⟩ := (Nat.log2_eq_iff hpos.ne').mp rfl
  have hlog : n.log2 < 53 := (Nat.log2_lt hpos.ne').mpr hlt
  have hsum : n.log2 + lacking n = 52 := by unfold lacking; omega
  constructor
  · rw [← hsum, Nat.pow_add]
    exact Nat.mul_le_mul_right _ hlow
  · rw [show 53 = n.log2 + 1 + lacking n by omega, Nat.pow_add]
    exact Nat.mul_lt_mul_of_pos_right hhigh (Nat.two_pow_pos _)

/-- A whole number is a wide mantissa. -/
theorem unpackedOfNat_eq {n : Nat} (hpos : 0 < n) (hlt : n < 2 ^ 53) :
    UnpackedFloat.ofNat Format.binary64 n =
      .finite .positive (n * 2 ^ lacking n) (-lacking n) (isWide_lacking hpos hlt).pos := by
  have hlog : n.log2 < 53 := (Nat.log2_lt hpos.ne').mpr hlt
  have htarget : Format.binary64.targetExponent (totalExponent n 0) = -(lacking n : Int) := by
    simp only [Format.targetExponent, totalExponent, Format.mantissaBits, Format.minExponent,
      lacking]
    norm_num
    omega
  have hsign : compare (n : Int) 0 = .gt := by simpa [compare_gt_iff_gt] using hpos
  have hround := roundWithAccuracy_wide (isWide_lacking hpos hlt)
    (e := -(lacking n : Int)) (by have := lacking_le n; omega) 0 .positive
  rw [UnpackedFloat.ofNat, UnpackedFloat.ofInt, UnpackedFloat.normalize, hsign]
  simp only [UnpackedFloat.round, Int.toNat_natCast, htarget, decreaseExponent, Int.sub_neg,
    Int.zero_add, Nat.shiftLeft_eq]
  simpa using hround

theorem unpack_pack_lacking {n : Nat} (hpos : 0 < n) (hlt : n < 2 ^ 53) (sign : Sign) :
    (Float.Model.pack (.finite sign (n * 2 ^ lacking n) (-lacking n)
        (isWide_lacking hpos hlt).pos)).unpack =
      .finite sign (n * 2 ^ lacking n) (-lacking n) (isWide_lacking hpos hlt).pos := by
  have hlacking := lacking_le n
  exact unpack_pack_wide (isWide_lacking hpos hlt) (by omega) (by omega) sign

/-- The double of a whole number has the wide mantissa of the number. -/
theorem ofNat_eq {n : Nat} (hpos : 0 < n) (hlt : n < 2 ^ 53) :
    Float.ofNat n = .ofModel (.pack
      (.finite .positive (n * 2 ^ lacking n) (-lacking n) (isWide_lacking hpos hlt).pos)) := by
  have hwide := isWide_lacking hpos hlt
  have hlacking := lacking_le n
  have hlow : -1074 ≤ -(lacking n : Int) := by omega
  have hword : n.toUInt64.toNat = n := Nat.mod_eq_of_lt (Nat.lt_trans hlt (by decide))
  have hfloat : n.toUInt64.toFloat = .ofModel (.pack
      (.finite .positive (n * 2 ^ lacking n) (-lacking n) hwide.pos)) := by
    rw [UInt64.toFloat, Float.Model.ofUInt64, UnpackedFloat.ofUInt64, hword,
      unpackedOfNat_eq hpos hlt]
  have hone : (Float.ofBits 0x3FF0000000000000).toModel.unpack =
      .finite .positive (2 ^ 52) (-52) (by decide) := rfl
  have hround := roundWithAccuracy_wide hwide hlow 52 .positive
  have hmul : Float.ofNat n = n.toUInt64.toFloat * Float.ofBits 0x3FF0000000000000 :=
    dif_pos ⟨hlt, by decide⟩
  rw [hmul, hfloat]
  show Float.ofModel (.pack (UnpackedFloat.mul _ (Float.Model.pack _).unpack
    (Float.ofBits 0x3FF0000000000000).toModel.unpack)) = _
  rw [unpack_pack_lacking hpos hlt, hone]
  exact congrArg (fun unpacked => Float.ofModel (.pack unpacked)) hround

/-! ## Whole parts -/

/-- The double of a sign, a wide mantissa and so many bits after the point. -/
structure IsDouble (x : Float) (sign : Sign) (m k : Nat) : Prop where
  wide : IsWide m
  small : k ≤ 52
  bits : x.toBits.toNat = sign.toBitVec.toNat * 2 ^ 63 + (1075 - k) * 2 ^ 52 + (m - 2 ^ 52)

namespace IsDouble

variable {x : Float} {sign : Sign} {m k : Nat}

/-- A wide mantissa that is packed is such a double. -/
theorem of_pack (h : IsWide m) (hk : k ≤ 52) (sign : Sign) :
    IsDouble (.ofModel (.pack (.finite sign m (-k) h.pos))) sign m k where
  wide := h
  small := hk
  bits := by
    have hbits := toNat_pack_wide h (e := -k) (by omega) (by omega) sign
    rw [show (-(k : Int) + 1075).toNat = 1075 - k by omega] at hbits
    exact hbits

/-- The exponent in the bits. -/
theorem exponentBits_eq (h : IsDouble x sign m k) : exponentBits x = 1075 - k := by
  obtain ⟨⟨hlow, hhigh⟩, hk, hbits⟩ := h
  rw [exponentBits, hbits]
  omega

/-- The mantissa in the bits, without its first one. -/
theorem fractionBits_eq (h : IsDouble x sign m k) : fractionBits x = m - 2 ^ 52 := by
  obtain ⟨⟨hlow, hhigh⟩, hk, hbits⟩ := h
  rw [fractionBits, hbits]
  omega

theorem isNegative_eq (h : IsDouble x sign m k) : isNegative x = (sign == .negative) := by
  obtain ⟨⟨hlow, hhigh⟩, hk, hbits⟩ := h
  rw [isNegative, hbits]
  cases sign with
  | positive =>
    rw [show Sign.positive.toBitVec.toNat = 0 from rfl]
    exact decide_eq_false (by norm_num; omega)
  | negative =>
    rw [show Sign.negative.toBitVec.toNat = 1 from rfl]
    exact decide_eq_true (by norm_num; omega)

theorem isFinite (h : IsDouble x sign m k) : isFinite x = true := by
  have hk := h.small
  rw [Numeric.isFinite, h.exponentBits_eq]
  simp
  omega

theorem ofFloat_eq (h : IsDouble x sign m k) :
    (Binary.ofFloat x).mantissa = m ∧ (Binary.ofFloat x).exponent = -k := by
  have hk := h.small
  have hm := h.wide.1
  rw [Binary.ofFloat, h.exponentBits_eq, h.fractionBits_eq, if_neg (by omega)]
  exact ⟨by norm_num; omega, by norm_num; omega⟩

/-- Nothing is left of a number that was shifted. -/
theorem wholePart_eq {n : Nat} (h : IsDouble x sign (n * 2 ^ k) k) :
    (Binary.ofFloat x).wholePart = (n, true) := by
  obtain ⟨hm, he⟩ := h.ofFloat_eq
  have hpow : Nat.pow 2 k = 2 ^ k := rfl
  rw [Binary.wholePart, hm, he]
  cases k with
  | zero => simp
  | succ k =>
    rw [if_neg (by omega), Int.neg_neg, Int.toNat_natCast, hpow]
    simp [Nat.mul_div_cancel _ (Nat.two_pow_pos _), Nat.mul_mod_left]

end IsDouble

/-! ## There and back -/

/-- The double of a whole number. -/
theorem isDouble_ofNat {n : Nat} (hpos : 0 < n) (hlt : n < 2 ^ 53) :
    IsDouble (Float.ofNat n) .positive (n * 2 ^ lacking n) (lacking n) := by
  rw [ofNat_eq hpos hlt]
  exact .of_pack (isWide_lacking hpos hlt) (lacking_le n) .positive

/-- The double of a negative one. -/
theorem isDouble_neg_ofNat {n : Nat} (hpos : 0 < n) (hlt : n < 2 ^ 53) :
    IsDouble (Float.neg (Float.ofNat n)) .negative (n * 2 ^ lacking n) (lacking n) := by
  have hneg : Float.neg (Float.ofNat n) = .ofModel (.pack (.finite .negative
      (n * 2 ^ lacking n) (-lacking n) (isWide_lacking hpos hlt).pos)) := by
    rw [ofNat_eq hpos hlt]
    show Float.ofModel (.pack (UnpackedFloat.neg (Float.Model.pack _).unpack)) = _
    rw [unpack_pack_lacking hpos hlt]
    rfl
  rw [hneg]
  exact .of_pack (isWide_lacking hpos hlt) (lacking_le n) .negative

/-- The whole part is the number, and nothing is left. -/
theorem IsDouble.truncate_eq {x : Float} {sign : Sign} {n k : Nat}
    (h : IsDouble x sign (n * 2 ^ k) k) :
    truncate x = some (if sign == .negative then -(n : Int) else n) ∧ isIntegral x = true := by
  have hsigned : signed x n = if sign == .negative then -(n : Int) else n := by
    rw [signed, h.isNegative_eq]
  rw [truncate, isIntegral, if_pos h.isFinite, h.isFinite, h.wholePart_eq, hsigned]
  exact ⟨rfl, rfl⟩

/-- A whole number of up to 53 bits is the whole part of its double, and nothing is left. -/
theorem truncate_ofInt {n : Int} (h : n.natAbs < 2 ^ 53) :
    truncate (Float.ofInt n) = some n ∧ isIntegral (Float.ofInt n) = true := by
  match n, h with
  | .ofNat 0, _ => decide +kernel
  | .ofNat (n + 1), h => exact (isDouble_ofNat (Nat.succ_pos n) h).truncate_eq
  | .negSucc n, h => exact (isDouble_neg_ofNat (Nat.succ_pos n) h).truncate_eq

end ScriptHooks.Numeric
