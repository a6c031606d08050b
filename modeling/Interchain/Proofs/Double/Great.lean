/-
Doubles that are no less than 2 ^ 53.

From there on the doubles are even, so that one less than such a number is rounded.  It is
rounded to no less than the double before (`Great.sub_one`): counted down by one, a double that
is greater never passes 2 ^ 53 by.

Doubles are compared by their bits.  Those of a positive double are its exponent and then its
significand, and 2 ^ 53 has the exponent 1076.
-/
import Interchain.Proofs.Double

namespace Interchain
namespace Double

open Float.Model Float.Model.UnpackedFloat

/-- The double is 2 ^ 53 or more, or infinite. -/
structure Great (x : Float) : Prop where
  le_toBits : 1076 * 2 ^ 52 ≤ x.toBits.toNat
  toBits_le : x.toBits.toNat ≤ 0x7FF * 2 ^ 52

variable {x : Float} {m : Nat} {e : Int}

/-! ## From bits -/

theorem eq_of_toBits {x y : Float} (h : x.toBits.toNat = y.toBits.toNat) : x = y := by
  obtain ⟨⟨a, ha⟩⟩ := x
  obtain ⟨⟨b, hb⟩⟩ := y
  have hbits : a = b := UInt64.toNat_inj.1 h
  subst hbits
  rfl

theorem eq_ofBits {b : Nat} (h : x.toBits.toNat = b) (hb : b ≤ 0x7FF * 2 ^ 52) :
    x = Float.ofBits (UInt64.ofNat b) :=
  eq_of_toBits (h.trans (toBits_ofBits hb).symm)

theorem toNat_unpackSign (v : BitVec Format.binary64.numBits) :
    (unpackSign v).toNat = v.toNat / 2 ^ 63 % 2 := by
  simp [unpackSign, Nat.shiftRight_eq_div_pow]

theorem sign_positive {v : BitVec Format.binary64.numBits} (h : v.toNat ≤ 0x7FF * 2 ^ 52) :
    Sign.ofBitVec (unpackSign v) = .positive := by
  have hzero : unpackSign v = 0#1 := by
    refine BitVec.eq_of_toNat_eq ?_
    rw [toNat_unpackSign]
    show v.toNat / 2 ^ 63 % 2 = 0
    omega
  rw [hzero]
  rfl

theorem unpack_normal (hnormal : 2 ^ 52 ≤ x.toBits.toNat) (h : x.toBits.toNat < 0x7FF * 2 ^ 52) :
    ∃ hpos, x.toModel.unpack = .finite .positive (2 ^ 52 + x.toBits.toNat % 2 ^ 52)
      ((x.toBits.toNat / 2 ^ 52 : Nat) - 1075) hpos := by
  let v : BitVec Format.binary64.numBits := x.toBits.toBitVec
  have hbits : v.toNat = x.toBits.toNat := rfl
  have hexponent := toNat_unpackExponent v
  have hfinite : unpackExponent v ≠ -1#_ := by
    intro hall
    rw [hall] at hexponent
    change 2047 = _ at hexponent
    omega
  have hnonzero : unpackExponent v ≠ 0#_ := by
    intro hzero
    rw [hzero] at hexponent
    change 0 = _ at hexponent
    omega
  have hmantissa : ((1#1 : BitVec 1) ++ unpackMantissa v).toNat =
      2 ^ 52 + x.toBits.toNat % 2 ^ 52 := by
    rw [BitVec.toNat_append, toNat_unpackMantissa v, Nat.shiftLeft_eq]
    have hlow : v.toNat % 2 ^ 52 < 2 ^ 52 := Nat.mod_lt _ (by decide)
    exact (Nat.two_pow_add_eq_or_of_lt hlow 1).symm
  have hunbiased : ((unpackExponent v).toNat : Int) -
      (Format.binary64.exponentBias + Format.binary64.mantissaBitsWithoutImplicit) =
        (x.toBits.toNat / 2 ^ 52 : Nat) - 1075 := by
    have hbias : (Format.binary64.exponentBias : Int) +
        Format.binary64.mantissaBitsWithoutImplicit = 1075 := by decide
    rw [hbias, hexponent]
    omega
  refine ⟨by omega, ?_⟩
  show UnpackedFloat.unpack Format.binary64 v = _
  have hsign : Sign.ofBitVec (unpackSign v) = .positive := sign_positive (Nat.le_of_lt h)
  rw [UnpackedFloat.unpack]
  simp only [hfinite, hnonzero, if_false, hmantissa, hunbiased, hsign]

theorem unpack_one : ∃ hpos, (1 : Float).toModel.unpack = .finite .positive (2 ^ 52) (-52) hpos :=
  ⟨by decide, rfl⟩

/-! ## Rounding -/

theorem mantissa_shift (em : ExtendedMantissa) (n : Nat) :
    (em >>> n).mantissa = em.mantissa / 2 ^ n := by
  show (n.repeat ExtendedMantissa.shiftRightOne em).mantissa = _
  induction n with
  | zero => exact (Nat.div_one _).symm
  | succ n ih =>
    rw [Nat.pow_succ, ← Nat.div_div_eq_div_mul, ← ih]
    rfl

theorem roundedMantissa_bounds (em : ExtendedMantissa) :
    em.mantissa ≤ em.roundedMantissa ∧ em.roundedMantissa ≤ em.mantissa + 1 := by
  obtain ⟨m, r, s⟩ := em
  have hodd : m % 2 < 2 := Nat.mod_lt _ (by decide)
  cases r <;> cases s <;>
    simp only [ExtendedMantissa.roundedMantissa, ExtendedMantissa.accuracy,
      Accuracy.roundToNearestEven] <;> omega

theorem targetExponent_long (hlog : 52 ≤ m.log2) (he : -1074 ≤ e) :
    Format.binary64.targetExponent (totalExponent m e) = m.log2 + e - 52 := by
  have hleast : Format.binary64.minExponent = -1074 := by decide
  have hdigits : (Format.binary64.mantissaBits : Int) = 53 := by decide
  rw [Format.targetExponent, totalExponent, hleast, hdigits]
  omega

/-- A significand that is long enough is cut to 53 binary digits. -/
theorem shift_long (hlog : 52 ≤ m.log2) (he : -1074 ≤ e) :
    (shiftToTargetExponent Format.binary64 m e .exact).1.mantissa = m / 2 ^ (m.log2 - 52) ∧
      (shiftToTargetExponent Format.binary64 m e .exact).2 = e + (m.log2 - 52 : Nat) := by
  have hshift : (Format.binary64.targetExponent (totalExponent m e) - e).toNat = m.log2 - 52 := by
    rw [targetExponent_long hlog he]
    omega
  rw [shiftToTargetExponent, shiftToExponent, hshift]
  exact ⟨mantissa_shift _ _, rfl⟩

theorem cut_bounds (hlog : 52 ≤ m.log2) :
    2 ^ 52 ≤ m / 2 ^ (m.log2 - 52) ∧ m / 2 ^ (m.log2 - 52) < 2 ^ 53 := by
  have hne : m ≠ 0 := by
    rintro rfl
    exact absurd hlog (by decide)
  have hlow : 2 ^ 52 * 2 ^ (m.log2 - 52) = 2 ^ m.log2 := by
    rw [← Nat.pow_add]
    congr 1
    omega
  have hhigh : 2 ^ 53 * 2 ^ (m.log2 - 52) = 2 ^ (m.log2 + 1) := by
    rw [← Nat.pow_add]
    congr 1
    omega
  rw [Nat.le_div_iff_mul_le (Nat.two_pow_pos _), Nat.div_lt_iff_lt_mul (Nat.two_pow_pos _), hlow,
    hhigh]
  exact ⟨Nat.log2_self_le hne, Nat.lt_log2_self⟩

theorem log2_of_bounds {k : Nat} (hlow : 2 ^ k ≤ m) (hhigh : m < 2 ^ (k + 1)) : m.log2 = k := by
  have hne : m ≠ 0 := Nat.ne_of_gt (Nat.lt_of_lt_of_le (Nat.two_pow_pos k) hlow)
  exact Nat.le_antisymm (Nat.lt_succ_iff.1 ((Nat.log2_lt hne).2 hhigh)) ((Nat.le_log2 hne).2 hlow)

/-- A long significand is rounded to one of 53 binary digits, and its exponent grows by as many
digits as were cut, or one more.  In the first case the digits that are kept are not less. -/
theorem round_long (hlog : 52 ≤ m.log2) (he : -1074 ≤ e) :
    ∃ m' e' hpos, round Format.binary64 .positive m e = .finite .positive m' e' hpos ∧
      m'.log2 = 52 ∧ e + (m.log2 - 52 : Nat) ≤ e' ∧
        (e' = e + (m.log2 - 52 : Nat) → m / 2 ^ (m.log2 - 52) ≤ m') := by
  have hkept : decreaseExponent m e (Format.binary64.targetExponent (totalExponent m e)) =
      (m, e) := by
    have hnone : (e - Format.binary64.targetExponent (totalExponent m e)).toNat = 0 := by
      rw [targetExponent_long hlog he]
      omega
    rw [decreaseExponent, hnone]
    exact Prod.ext rfl (Int.sub_zero e)
  obtain ⟨hcut, hexponent⟩ := shift_long hlog he
  obtain ⟨hlow, hhigh⟩ := cut_bounds hlog
  have hrounded := roundedMantissa_bounds (shiftToTargetExponent Format.binary64 m e .exact).1
  rw [hcut] at hrounded
  rw [Float.Model.UnpackedFloat.round, hkept]
  show ∃ m' e' hpos, roundWithAccuracy Format.binary64 .positive m e .exact = _ ∧ _
  rw [roundWithAccuracy]
  rcases hfirst : shiftToTargetExponent Format.binary64 m e .exact with ⟨em, e₁⟩
  rw [hfirst] at hrounded hexponent
  simp only at hrounded hexponent ⊢
  -- the second shift only takes away the digit that rounding up to 2 ^ 53 adds
  have hlong : 52 ≤ em.roundedMantissa.log2 := (Nat.le_log2 (by omega)).2 (by omega)
  obtain ⟨hcut', hexponent'⟩ := shift_long (e := e₁) hlong (by omega)
  obtain ⟨hlow', hhigh'⟩ := cut_bounds hlong
  rw [← hcut'] at hlow' hhigh'
  rw [dif_neg (by omega)]
  refine ⟨_, _, by omega, rfl, log2_of_bounds hlow' hhigh', by omega, fun hkept => ?_⟩
  have hnone : em.roundedMantissa.log2 - 52 = 0 := by omega
  rw [hcut', hnone, Nat.pow_zero, Nat.div_one]
  exact hrounded.1

/-! ## To bits -/

theorem toNat_packComponents (e : BitVec Format.binary64.exponentBits)
    (m : BitVec Format.binary64.mantissaBitsWithoutImplicit) :
    (packComponents Format.binary64 .positive e m).toNat = e.toNat * 2 ^ 52 + m.toNat := by
  have hm : m.toNat < 2 ^ 52 := m.isLt
  have he : e.toNat < 2 ^ 11 := e.isLt
  have hsign : (Sign.toBitVec .positive ++ e).toNat = e.toNat := by
    rw [BitVec.toNat_append]
    show 0 <<< 11 ||| e.toNat = _
    rw [Nat.zero_shiftLeft, Nat.zero_or]
  rw [packComponents, BitVec.toNat_append, hsign, Nat.shiftLeft_eq, Nat.mul_comm]
  exact (Nat.two_pow_add_eq_or_of_lt hm e.toNat).symm

/-- The bits of a double with a full significand and a positive exponent. -/
theorem toBits_pack (hpos : 0 < m) (hlog : m.log2 = 52) (he : 1 ≤ e) :
    (Float.ofModel (Float.Model.pack (.finite .positive m e hpos))).toBits.toNat =
      min ((e.toNat + 1074) * 2 ^ 52 + m) (0x7FF * 2 ^ 52) := by
  have hexponent : (e + Format.binary64.exponentBias +
      Format.binary64.mantissaBitsWithoutImplicit).toNat = e.toNat + 1075 := by
    have hbias : (Format.binary64.exponentBias : Int) = 1023 := by decide
    rw [hbias]
    show (e + 1023 + 52).toNat = _
    omega
  have hlow := Nat.log2_self_le (Nat.ne_of_gt hpos)
  have hhigh := Nat.lt_log2_self (n := m)
  rw [hlog] at hlow hhigh
  show (UnpackedFloat.pack Format.binary64 (.finite .positive m e hpos)).toNat = _
  rw [UnpackedFloat.pack]
  simp only [hexponent, hlog]
  -- in the place of the exponent, 2047 and more is infinity
  split
  · next hinfinite =>
    have hinfinite : 2 ^ 11 ≤ e.toNat + 1075 + 1 := hinfinite
    rw [Nat.min_eq_right (by omega)]
    decide
  · next hfinite =>
    have hfinite : ¬ 2 ^ 11 ≤ e.toNat + 1075 + 1 := hfinite
    have hexponent : (BitVec.ofNat Format.binary64.exponentBits (e.toNat + 1075)).toNat =
        e.toNat + 1075 := Nat.mod_eq_of_lt (by omega : e.toNat + 1075 < 2 ^ 11)
    have hmantissa : (BitVec.ofNat Format.binary64.mantissaBitsWithoutImplicit m).toNat =
        m % 2 ^ 52 := rfl
    have hdigits : m % 2 ^ 52 + 2 ^ 52 = m := by omega
    rw [if_pos (by decide), toNat_packComponents, hexponent, hmantissa, Nat.min_eq_left (by omega)]
    omega

/-! ## One less -/

/-- The significand and the exponent of a number that is 2 ^ 53 or more, from its bits. -/
def significand (b : Nat) : Nat := 2 ^ 52 + b % 2 ^ 52

def exponent (b : Nat) : Nat := b / 2 ^ 52 - 1075

theorem significand_mem (b : Nat) : 2 ^ 52 ≤ significand b ∧ significand b < 2 ^ 53 := by
  rw [significand]
  omega

theorem bits_eq {b : Nat} (hb : 1076 * 2 ^ 52 ≤ b) :
    (exponent b + 1074) * 2 ^ 52 + significand b = b ∧ 1 ≤ exponent b := by
  have hquotient : 1076 ≤ b / 2 ^ 52 := (Nat.le_div_iff_mul_le (by decide)).2 hb
  have hexponent : exponent b + 1075 = b / 2 ^ 52 := Nat.sub_add_cancel (by omega)
  have hdigits := Nat.div_add_mod b (2 ^ 52)
  rw [← hexponent] at hdigits hquotient
  rw [significand]
  omega

/-- Bits are compared by the exponent first and then by the significand. -/
theorem bits_le {b k : Nat} (hb : 1076 * 2 ^ 52 ≤ b) (hm : 2 ^ 52 ≤ m)
    (h : exponent b < k ∨ exponent b = k ∧ significand b ≤ m) : b ≤ (k + 1074) * 2 ^ 52 + m := by
  obtain ⟨hbits, -⟩ := bits_eq hb
  obtain ⟨-, hhigh⟩ := significand_mem b
  rcases h with hlt | ⟨rfl, hle⟩
  · omega
  · omega

/-- From 2 ^ 53 on two numbers that differ are at least 2 apart. -/
theorem significand_add_two_le {b c : Nat} (hb : 1076 * 2 ^ 52 ≤ b) (h : b < c) :
    significand b * 2 ^ exponent b + 2 ≤ significand c * 2 ^ exponent c := by
  obtain ⟨hb', hexponent⟩ := bits_eq hb
  obtain ⟨hc', -⟩ := bits_eq (Nat.le_of_lt (Nat.lt_of_le_of_lt hb h))
  obtain ⟨hlow, hhigh⟩ := significand_mem b
  obtain ⟨hlow', hhigh'⟩ := significand_mem c
  have heven : 2 ^ 1 ≤ 2 ^ exponent b := Nat.pow_le_pow_right (by decide) hexponent
  have hnext : significand b * 2 ^ exponent b + 2 ≤ (significand b + 1) * 2 ^ exponent b := by
    rw [Nat.add_mul, Nat.one_mul]
    omega
  refine Nat.le_trans hnext ?_
  rcases Nat.lt_or_ge (exponent b) (exponent c) with hlt | hge
  · calc (significand b + 1) * 2 ^ exponent b ≤ 2 ^ 52 * 2 * 2 ^ exponent b :=
          Nat.mul_le_mul_right _ (by omega)
      _ = 2 ^ 52 * 2 ^ (exponent b + 1) := by rw [Nat.pow_succ]; ring
      _ ≤ significand c * 2 ^ exponent c :=
          Nat.mul_le_mul hlow' (Nat.pow_le_pow_right (by decide) hlt)
  · have hsame : exponent b = exponent c := by omega
    rw [hsame]
    exact Nat.mul_le_mul_right _ (by omega)

theorem normalize_sub {n : Nat} (h : n < m) {zeroSign : Sign} :
    normalize Format.binary64 (Sign.positive.apply m - Sign.positive.apply n) e zeroSign =
      round Format.binary64 .positive (m - n) e := by
  have hwhole : Sign.positive.apply m - Sign.positive.apply n = ((m - n : Nat) : Int) :=
    (Int.ofNat_sub (Nat.le_of_lt h)).symm
  have hpositive : compare ((m - n : Nat) : Int) 0 = .gt := by
    rw [Int.compare_eq_gt]
    omega
  rw [hwhole, UnpackedFloat.normalize, hpositive]
  show round _ _ ((m - n : Nat) : Int).toNat _ = _
  rw [Int.toNat_natCast]

theorem sub_finite_one {hpos hone} (he : 1 ≤ e) (hm : 2 ^ 52 < m * 2 ^ (e.toNat + 52)) :
    sub Format.binary64 (.finite .positive m e hpos) (.finite .positive (2 ^ 52) (-52) hone) =
      round Format.binary64 .positive (m * 2 ^ (e.toNat + 52) - 2 ^ 52) (-52) := by
  have hmin : min e (-52) = -52 := by omega
  have hdigits : (e - -52).toNat = e.toNat + 52 := by omega
  have hleft : (decreaseExponent m e (-52)).1 = m * 2 ^ (e.toNat + 52) := by
    rw [decreaseExponent, hdigits]
    exact Nat.shiftLeft_eq _ _
  have hright : (decreaseExponent (2 ^ 52) (-52) (-52)).1 = 2 ^ 52 := rfl
  show normalize Format.binary64 (Sign.positive.apply (decreaseExponent m e (min e (-52))).1 -
    Sign.positive.apply (decreaseExponent (2 ^ 52) (-52) (min e (-52))).1) (min e (-52))
      .positive = _
  rw [hmin, hleft, hright]
  exact normalize_sub hm

/-- What is no less than a double is rounded to no less, here in units of 2 ^ -52. -/
theorem le_toBits_round {b n : Nat} (hb : 1076 * 2 ^ 52 ≤ b) (hb' : b ≤ 0x7FF * 2 ^ 52)
    (hn : significand b * 2 ^ (exponent b + 52) ≤ n) :
    b ≤ (Float.ofModel (Float.Model.pack (round Format.binary64 .positive n (-52)))).toBits.toNat ∧
      (Float.ofModel (Float.Model.pack (round Format.binary64 .positive n (-52)))).toBits.toNat ≤
        0x7FF * 2 ^ 52 := by
  obtain ⟨-, hexponent⟩ := bits_eq hb
  have hpower : 2 ^ (52 + (exponent b + 52)) ≤ n := by
    rw [Nat.pow_add]
    exact Nat.le_trans (Nat.mul_le_mul_right _ (significand_mem b).1) hn
  have hlong : 52 + (exponent b + 52) ≤ n.log2 :=
    (Nat.le_log2 (Nat.ne_of_gt (Nat.lt_of_lt_of_le (Nat.two_pow_pos _) hpower))).2 hpower
  clear hpower
  obtain ⟨m', e', hpos, hround, hlog, hle, hkept⟩ :=
    round_long (m := n) (e := -52) (by omega) (by decide)
  have hm' := Nat.log2_self_le (Nat.ne_of_gt hpos)
  rw [hlog] at hm'
  rw [hround, toBits_pack hpos hlog (by omega)]
  refine ⟨Nat.le_min.2 ⟨bits_le hb hm' ?_, hb'⟩, Nat.min_le_right _ _⟩
  rcases Nat.lt_or_ge (exponent b) e'.toNat with hlt | hge
  · exact Or.inl hlt
  · have hdigits : n.log2 - 52 = exponent b + 52 := by omega
    have hcut : significand b ≤ n / 2 ^ (n.log2 - 52) := by
      rw [hdigits, Nat.le_div_iff_mul_le (Nat.two_pow_pos _)]
      exact hn
    exact Or.inr ⟨by omega, Nat.le_trans hcut (hkept (by omega))⟩

/-- Counted down by one, a number does not pass a smaller double by. -/
theorem Great.sub_one (h : Great x) {b : Nat} (hb : 1076 * 2 ^ 52 ≤ b)
    (hlt : b < x.toBits.toNat) : Great (x - 1) ∧ b ≤ (x - 1).toBits.toNat := by
  suffices hbits : b ≤ (x - 1).toBits.toNat ∧ (x - 1).toBits.toNat ≤ 0x7FF * 2 ^ 52 from
    ⟨⟨Nat.le_trans hb hbits.1, hbits.2⟩, hbits.1⟩
  rcases Nat.lt_or_eq_of_le h.toBits_le with hfinite | hinfinite
  · have hsub : x - 1 = .ofModel (Float.Model.pack
        (sub Format.binary64 x.toModel.unpack (1 : Float).toModel.unpack)) := rfl
    obtain ⟨hone, hunpackOne⟩ := unpack_one
    obtain ⟨hpos, hunpack⟩ := unpack_normal (by omega) hfinite
    have hexponent : ((x.toBits.toNat / 2 ^ 52 : Nat) - 1075 : Int).toNat =
        exponent x.toBits.toNat := Int.toNat_sub _ 1075
    have hapart := Nat.mul_le_mul_right (2 ^ 52) (significand_add_two_le hb hlt)
    rw [Nat.add_mul, Nat.mul_assoc, Nat.mul_assoc, ← Nat.pow_add, ← Nat.pow_add] at hapart
    have hmore := Nat.le_trans (Nat.le_add_left (2 * 2 ^ 52) _) hapart
    have hless := Nat.le_sub_of_add_le
      (Nat.le_trans (Nat.add_le_add_left (by decide : 2 ^ 52 ≤ 2 * 2 ^ 52) _) hapart)
    rw [hsub, hunpackOne, hunpack, sub_finite_one (by omega) (by
      rw [hexponent]
      exact Nat.lt_of_lt_of_le (by decide) hmore), hexponent]
    exact le_toBits_round hb (by omega) hless
  · rw [eq_ofBits hinfinite (Nat.le_refl _)]
    have hstays : (Float.ofBits (UInt64.ofNat (0x7FF * 2 ^ 52)) - 1).toBits.toNat =
      0x7FF * 2 ^ 52 := by decide +kernel
    omega

/-! ## Great numbers -/

theorem toBits_ofInt (n : Nat) : (ofInt n).toBits.toNat = bitsOfRatio n 1 := by
  have hsign : decide ((n : Int) < 0) = false := decide_eq_false (by omega)
  rw [ofInt, hsign, Int.natAbs_natCast, ofRatio_positive, toBits_ofBits (bitsOfRatio_le n 1)]

theorem great_ofInt {n : Nat} (hn : 2 ^ 53 ≤ n) : Great (ofInt n) :=
  ⟨toBits_ofInt n ▸ le_bitsOfRatio hn, toBits_ofInt n ▸ bitsOfRatio_le n 1⟩

/-- From 2 ^ 53 + 3 on a number is rounded to the third double from 2 ^ 53 on, or to a greater
one. -/
theorem third_le_ofInt {n : Nat} (hn : 2 ^ 53 + 2 < n) :
    1076 * 2 ^ 52 + 2 ≤ (ofInt n).toBits.toNat := by
  rw [toBits_ofInt]
  by_cases hmidway : n = 2 ^ 53 + 3
  · rw [hmidway]
    decide +kernel
  obtain ⟨hrounded, hbits⟩ := bitsOfRatio_of_le (n := n) (by omega)
  have hlog : 53 ≤ n.log2 := (Nat.le_log2 (by omega)).2 (by omega)
  rcases Nat.lt_or_eq_of_le hlog with hlong | hshort
  · omega
  · have hhalf := le_roundHalfEven n (2 ^ (n.log2 - 52))
    rw [← hshort] at hbits hhalf
    omega

theorem Great.pos (h : Great x) : 0 < x := by
  have hlow := h.le_toBits
  rcases Nat.lt_or_eq_of_le h.toBits_le with hfinite | hinfinite
  · obtain ⟨hpos, hunpack⟩ := unpack_normal (by omega) hfinite
    show decide (UnpackedFloat.lt (0 : Float).toModel.unpack x.toModel.unpack = true) = true
    rw [hunpack]
    rfl
  · rw [eq_ofBits hinfinite (Nat.le_refl _)]
    decide +kernel

theorem significand_least :
    significand (1076 * 2 ^ 52) * 2 ^ exponent (1076 * 2 ^ 52) = 2 ^ 53 := by decide +kernel

/-- Only the least of the great doubles is 2 ^ 53. -/
theorem Great.lt_of_toNat? (h : Great x) {n : Nat} (hn : toNat? x = some n)
    (hlt : 1076 * 2 ^ 52 < x.toBits.toNat) : 2 ^ 53 < n := by
  have hx := eq_ofBits rfl h.toBits_le
  rcases Nat.lt_or_eq_of_le h.toBits_le with hfinite | hinfinite
  · have hvalue := toNat?_ofBits h.le_toBits hfinite
    rw [← hx, hn, Option.some.injEq] at hvalue
    have hvalue : significand x.toBits.toNat * 2 ^ exponent x.toBits.toNat = n := hvalue.symm
    have hapart := significand_add_two_le (Nat.le_refl (1076 * 2 ^ 52)) hlt
    rw [significand_least, hvalue] at hapart
    exact Nat.lt_of_lt_of_le (Nat.lt_add_of_pos_right (by decide)) hapart
  · rw [hx, hinfinite, toNat?, parts_ofBits_infinite] at hn
    cases hn

end Double

end Interchain
