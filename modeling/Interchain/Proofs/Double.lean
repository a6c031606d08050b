/-
Natural numbers that are read as doubles.

A natural number below 2 ^ 53 is the double that is read for it, and no other is read as a
smaller one (`toNat?_ofDecimal`): rounding takes a number of 53 binary digits or fewer to
itself, and a greater one to an infinity or to a multiple of a power of two that is no less than
2 ^ 53.
-/
import Interchain.Double
import Mathlib

namespace Interchain
namespace Double

open Float.Model Float.Model.UnpackedFloat

/-! ## Bits -/

theorem toNat_unpackMantissa (v : BitVec Format.binary64.numBits) :
    (unpackMantissa v).toNat = v.toNat % 2 ^ 52 := by
  simp [unpackMantissa]

theorem toNat_unpackExponent (v : BitVec Format.binary64.numBits) :
    (unpackExponent v).toNat = v.toNat / 2 ^ 52 % 2 ^ 11 := by
  simp [unpackExponent, Nat.shiftRight_eq_div_pow]

/-- Up to the bits of infinity none stand for no number. -/
theorem isNaNBits_eq_false {v : BitVec Format.binary64.numBits} (h : v.toNat ≤ 0x7FF * 2 ^ 52) :
    isNaNBits v = false := by
  rw [isNaNBits, decide_eq_false_iff_not]
  rintro ⟨hexponent, hmantissa⟩
  have he := congrArg BitVec.toNat hexponent
  rw [toNat_unpackExponent] at he
  change v.toNat / 2 ^ 52 % 2 ^ 11 = 2047 at he
  refine hmantissa (BitVec.eq_of_toNat_eq ?_)
  rw [toNat_unpackMantissa]
  show v.toNat % 2 ^ 52 = 0
  omega

theorem toBits_ofBits {b : Nat} (h : b ≤ 0x7FF * 2 ^ 52) :
    (Float.ofBits (UInt64.ofNat b)).toBits.toNat = b := by
  let v : BitVec Format.binary64.numBits := (UInt64.ofNat b).toBitVec
  have hbits : v.toNat = b := by
    show (UInt64.ofNat b).toNat = b
    rw [UInt64.toNat_ofNat']
    omega
  have hpack := pack_unpack v (by decide)
  rw [isNaNBits_eq_false (by omega)] at hpack
  show BitVec.toNat (pack Format.binary64 (unpack Format.binary64 v)) = b
  rw [hpack]
  exact hbits

/-- The natural number that bits stand for: an integer if the exponent lets it be one. -/
theorem parts_ofBits {b : Nat} (h : b < 0x7FF * 2 ^ 52) (hnormal : 2 ^ 52 ≤ b) :
    parts (Float.ofBits (UInt64.ofNat b)) =
      .finite false (2 ^ 52 + b % 2 ^ 52) (minExponent + (b / 2 ^ 52 : Nat) - 1) := by
  have hexponent : b / 2 ^ 52 % 2 ^ 11 = b / 2 ^ 52 := by omega
  have hpositive : (b / 2 ^ 63 == 1) = false := by
    rw [beq_eq_false_iff_ne]
    omega
  have hfinite : b / 2 ^ 52 ≠ 0x7FF := by omega
  have hlarge : b / 2 ^ 52 ≠ 0 := by omega
  rw [parts, toBits_ofBits (by omega)]
  simp only [hexponent, hpositive, hfinite, hlarge, if_false]

theorem parts_ofBits_infinite : parts (Float.ofBits (UInt64.ofNat (0x7FF * 2 ^ 52))) =
    .infinite false := by
  rw [parts, toBits_ofBits (Nat.le_refl _)]
  rfl

/-! ## Rounding -/

theorem roundHalfEven_one (n : Nat) : roundHalfEven n 1 = n := by
  rw [roundHalfEven]
  simp [Nat.mod_one]

theorem le_roundHalfEven (n d : Nat) : n / d ≤ roundHalfEven n d := by
  rw [roundHalfEven]
  split
  · omega
  · omega

theorem scale_one_of_neg (n : Nat) {q : Int} (h : q < 0) :
    scale n 1 q = (n * 2 ^ (-q).toNat, 1) := if_pos h

theorem scale_one_of_nonneg (n : Nat) {q : Int} (h : ¬ q < 0) :
    scale n 1 q = (n, 2 ^ q.toNat) := by
  rw [scale, if_neg h, Nat.one_mul]

/-- The grid for a number puts its first binary digit in the 53rd place. -/
theorem gridExponent_one {n : Nat} (h : n ≠ 0) : gridExponent n 1 = (n.log2 : Int) - 52 := by
  have hlow : 2 ^ n.log2 ≤ n := Nat.log2_self_le h
  have hone : Nat.log2 1 = 0 := by decide
  have hmax : max minExponent ((n.log2 : Int) - (Nat.log2 1 : Nat) - 53) = (n.log2 : Int) - 53 := by
    rw [hone, minExponent]
    omega
  -- on the grid below, the number has a digit too many
  have hwide : ¬ (scale n 1 ((n.log2 : Int) - 53)).1 / (scale n 1 ((n.log2 : Int) - 53)).2 <
      2 ^ 53 := by
    rw [Nat.not_lt]
    by_cases hk : (n.log2 : Int) - 53 < 0
    · rw [scale_one_of_neg n hk, Nat.div_one]
      calc 2 ^ 53 = 2 ^ n.log2 * 2 ^ (-((n.log2 : Int) - 53)).toNat := by
            rw [← Nat.pow_add]
            congr 1
            omega
        _ ≤ n * 2 ^ (-((n.log2 : Int) - 53)).toNat := Nat.mul_le_mul_right _ hlow
    · rw [scale_one_of_nonneg n hk, Nat.le_div_iff_mul_le (Nat.two_pow_pos _), ← Nat.pow_add]
      have hsum : 53 + ((n.log2 : Int) - 53).toNat = n.log2 := by omega
      rw [hsum]
      exact hlow
  rw [gridExponent, hmax]
  simp only [if_neg hwide]
  omega

theorem bitsOfRatio_one {n a b : Nat} (h : n ≠ 0)
    (hscale : scale n 1 ((n.log2 : Int) - 52) = (a, b)) (hrounded : 2 ^ 52 ≤ roundHalfEven a b) :
    bitsOfRatio n 1 =
      min ((n.log2 + 1022) * 2 ^ 52 + roundHalfEven a b) (0x7FF * 2 ^ 52) := by
  have hexponent : ((n.log2 : Int) - 52 - minExponent).toNat = n.log2 + 1022 := by
    rw [minExponent]
    omega
  rw [bitsOfRatio, if_neg h, gridExponent_one h]
  simp only [hscale, if_neg (Nat.not_lt.2 hrounded), hexponent]

/-- The significand of a number of 53 binary digits or fewer: the number with zeros behind it. -/
theorem significand_bounds {n : Nat} (h : n ≠ 0) (hlog : n.log2 ≤ 52) :
    2 ^ 52 ≤ n * 2 ^ (52 - n.log2) ∧ n * 2 ^ (52 - n.log2) < 2 ^ 53 := by
  have hlow : 2 ^ n.log2 ≤ n := Nat.log2_self_le h
  have hhigh : n < 2 ^ (n.log2 + 1) := Nat.lt_log2_self
  constructor
  · calc 2 ^ 52 = 2 ^ n.log2 * 2 ^ (52 - n.log2) := by
          rw [← Nat.pow_add]
          congr 1
          omega
      _ ≤ n * 2 ^ (52 - n.log2) := Nat.mul_le_mul_right _ hlow
  · calc n * 2 ^ (52 - n.log2) < 2 ^ (n.log2 + 1) * 2 ^ (52 - n.log2) :=
          Nat.mul_lt_mul_of_pos_right hhigh (Nat.two_pow_pos _)
      _ = 2 ^ 53 := by
          rw [← Nat.pow_add]
          congr 1
          omega

/-- A number of 53 binary digits or fewer keeps them all. -/
theorem bitsOfRatio_of_lt {n : Nat} (h : n ≠ 0) (hlog : n.log2 ≤ 52) :
    bitsOfRatio n 1 = (n.log2 + 1022) * 2 ^ 52 + n * 2 ^ (52 - n.log2) := by
  obtain ⟨hlow, hhigh⟩ := significand_bounds h hlog
  have hscale : scale n 1 ((n.log2 : Int) - 52) = (n * 2 ^ (52 - n.log2), 1) := by
    have hzeros : (-((n.log2 : Int) - 52)).toNat = 52 - n.log2 := by omega
    by_cases hneg : (n.log2 : Int) - 52 < 0
    · rw [scale_one_of_neg n hneg, hzeros]
    · have hfull : n.log2 = 52 := by omega
      rw [scale_one_of_nonneg n hneg, hfull]
      show (n, 1) = (n * 1, 1)
      rw [Nat.mul_one]
  rw [bitsOfRatio_one h hscale (by rw [roundHalfEven_one]; exact hlow), roundHalfEven_one]
  omega

/-- A number of more digits is cut to 53 of them. -/
theorem bitsOfRatio_of_le {n : Nat} (h : 2 ^ 53 ≤ n) :
    2 ^ 52 ≤ roundHalfEven n (2 ^ (n.log2 - 52)) ∧ bitsOfRatio n 1 =
      min ((n.log2 + 1022) * 2 ^ 52 + roundHalfEven n (2 ^ (n.log2 - 52))) (0x7FF * 2 ^ 52) := by
  have hne : n ≠ 0 := by omega
  have hlog : 53 ≤ n.log2 := (Nat.le_log2 hne).2 h
  have hlow : 2 ^ n.log2 ≤ n := Nat.log2_self_le hne
  have hdigits : ((n.log2 : Int) - 52).toNat = n.log2 - 52 := by omega
  have hscale : scale n 1 ((n.log2 : Int) - 52) = (n, 2 ^ (n.log2 - 52)) := by
    rw [scale_one_of_nonneg n (by omega), hdigits]
  have hrounded : 2 ^ 52 ≤ roundHalfEven n (2 ^ (n.log2 - 52)) := by
    refine Nat.le_trans ?_ (le_roundHalfEven _ _)
    rw [Nat.le_div_iff_mul_le (Nat.two_pow_pos _), ← Nat.pow_add]
    have hsum : 52 + (n.log2 - 52) = n.log2 := by omega
    rw [hsum]
    exact hlow
  exact ⟨hrounded, bitsOfRatio_one hne hscale hrounded⟩

/-- A greater number has an exponent that makes it a multiple of a power of two. -/
theorem le_bitsOfRatio {n : Nat} (h : 2 ^ 53 ≤ n) : 1076 * 2 ^ 52 ≤ bitsOfRatio n 1 := by
  have hlog : 53 ≤ n.log2 := (Nat.le_log2 (by omega)).2 h
  obtain ⟨hrounded, hbits⟩ := bitsOfRatio_of_le h
  omega

theorem bitsOfRatio_le (num den : Nat) : bitsOfRatio num den ≤ 0x7FF * 2 ^ 52 := by
  rw [bitsOfRatio]
  split
  · omega
  · exact Nat.min_le_right _ _

/-! ## Numbers read as doubles -/

theorem ofRatio_positive (num den : Nat) :
    ofRatio false num den = Float.ofBits (UInt64.ofNat (bitsOfRatio num den)) := by
  rw [ofRatio, if_neg (by decide), Nat.zero_add]

theorem inUnits_one_of_neg (m : Nat) {q : Int} (h : q < 0) :
    inUnits m q 0 = (m, 2 ^ (-q).toNat) := by
  rw [inUnits, if_pos h]
  show (m, 2 ^ (-q).toNat * 1) = _
  rw [Nat.mul_one]

theorem inUnits_one_of_nonneg (m : Nat) {q : Int} (h : ¬ q < 0) :
    inUnits m q 0 = (m * 2 ^ q.toNat, 1) := by
  rw [inUnits, if_neg h]
  rfl

theorem toNat?_finite {x : Float} {m a b : Nat} {q : Int} (h : parts x = .finite false m q)
    (hunits : inUnits m q 0 = (a, b)) :
    toNat? x = if a % b = 0 then some (a / b) else none := by
  rw [toNat?, h]
  simp only [hunits, true_or, and_true]

theorem toNat?_ofRatio_zero : toNat? (ofRatio false 0 1) = some 0 := by
  have hbits : bitsOfRatio 0 1 = 0 := rfl
  have hparts : parts (Float.ofBits (UInt64.ofNat 0)) = .finite false 0 minExponent := by
    rw [parts, toBits_ofBits (Nat.zero_le _)]
    rfl
  have hunits : inUnits 0 minExponent 0 = (0, 2 ^ (-minExponent).toNat) :=
    inUnits_one_of_neg 0 (by decide)
  rw [ofRatio_positive, hbits, toNat?_finite hparts hunits, Nat.zero_mod, if_pos rfl, Nat.zero_div]

theorem toNat?_ofRatio_of_lt {n : Nat} (h : n < 2 ^ 53) :
    toNat? (ofRatio false n 1) = some n := by
  by_cases hne : n = 0
  · rw [hne]
    exact toNat?_ofRatio_zero
  have hlog : n.log2 ≤ 52 := Nat.lt_succ_iff.1 ((Nat.log2_lt hne).2 h)
  have hbits := bitsOfRatio_of_lt hne hlog
  obtain ⟨hlow, hhigh⟩ := significand_bounds hne hlog
  have hparts := parts_ofBits (b := bitsOfRatio n 1) (by omega) (by omega)
  have hsignificand : 2 ^ 52 + bitsOfRatio n 1 % 2 ^ 52 = n * 2 ^ (52 - n.log2) := by omega
  have hexponent : minExponent + (bitsOfRatio n 1 / 2 ^ 52 : Nat) - 1 = (n.log2 : Int) - 52 := by
    rw [minExponent]
    omega
  rw [hsignificand, hexponent] at hparts
  rw [ofRatio_positive]
  by_cases hneg : (n.log2 : Int) - 52 < 0
  · have hzeros : (-((n.log2 : Int) - 52)).toNat = 52 - n.log2 := by omega
    rw [toNat?_finite hparts (inUnits_one_of_neg _ hneg), hzeros, Nat.mul_mod_left, if_pos rfl,
      Nat.mul_div_cancel _ (Nat.two_pow_pos _)]
  · have hfull : n.log2 = 52 := by omega
    rw [toNat?_finite hparts (inUnits_one_of_nonneg _ hneg), hfull, Nat.mod_one, if_pos rfl,
      Nat.div_one]
    show some (n * 1 * 1) = some n
    rw [Nat.mul_one, Nat.mul_one]

/-- From the bits of 2 ^ 53 on there is a natural number for all that are finite. -/
theorem toNat?_ofBits {b : Nat} (hlow : 1076 * 2 ^ 52 ≤ b) (hhigh : b < 0x7FF * 2 ^ 52) :
    toNat? (Float.ofBits (UInt64.ofNat b)) =
      some ((2 ^ 52 + b % 2 ^ 52) * 2 ^ (b / 2 ^ 52 - 1075)) := by
  have hexponent : minExponent + (b / 2 ^ 52 : Nat) - 1 = (b / 2 ^ 52 - 1075 : Nat) := by
    rw [minExponent]
    omega
  have hparts := parts_ofBits (b := b) hhigh (by omega)
  rw [hexponent] at hparts
  rw [toNat?_finite hparts (inUnits_one_of_nonneg _ (by omega)), Nat.mod_one, if_pos rfl,
    Nat.div_one, Int.toNat_natCast]

theorem le_of_toNat?_ofBits {b m : Nat} (hlow : 1076 * 2 ^ 52 ≤ b) (hhigh : b ≤ 0x7FF * 2 ^ 52)
    (hm : toNat? (Float.ofBits (UInt64.ofNat b)) = some m) : 2 ^ 53 ≤ m := by
  by_cases hinfinite : b = 0x7FF * 2 ^ 52
  · rw [hinfinite, toNat?, parts_ofBits_infinite] at hm
    cases hm
  · rw [toNat?_ofBits hlow (by omega), Option.some.injEq] at hm
    have hpower : 2 ^ 1 ≤ 2 ^ (b / 2 ^ 52 - 1075) := Nat.pow_le_pow_right (by decide) (by omega)
    calc 2 ^ 53 = 2 ^ 52 * 2 ^ 1 := rfl
      _ ≤ (2 ^ 52 + b % 2 ^ 52) * 2 ^ (b / 2 ^ 52 - 1075) :=
        Nat.mul_le_mul (Nat.le_add_right _ _) hpower
      _ = m := hm

theorem le_of_toNat?_ofRatio {n m : Nat} (h : 2 ^ 53 ≤ n)
    (hm : toNat? (ofRatio false n 1) = some m) : 2 ^ 53 ≤ m :=
  le_of_toNat?_ofBits (le_bitsOfRatio h) (bitsOfRatio_le n 1) (ofRatio_positive n 1 ▸ hm)

/-- A number that is too great for a double is taken for one that is too great as well. -/
theorem ofDecimal_whole (n : Nat) :
    ofDecimal false n 0 = ofRatio false n 1 ∨
      2 ^ 53 ≤ n ∧ ofDecimal false n 0 = ofRatio false (2 ^ 1100) 1 := by
  rw [ofDecimal]
  by_cases hzero : n = 0
  · left
    rw [if_pos (Or.inl hzero), hzero]
  have hsmall : ¬ (n = 0 ∨ (n.log2 : Int) / 4 + 0 + (n.log2 : Int) < -400) := by omega
  rw [if_neg hsmall]
  by_cases hgreat : 400 < (n.log2 : Int) / 4 + 0
  · right
    have hlog : 53 ≤ n.log2 := by omega
    exact ⟨(Nat.le_log2 hzero).1 hlog, if_pos hgreat⟩
  · left
    rw [if_neg hgreat, if_neg (by decide)]
    show ofRatio false (n * 1) 1 = _
    rw [Nat.mul_one]

/-- Of the texts of natural numbers, only its own is read as a number below 2 ^ 53. -/
theorem toNat?_ofDecimal {n m : Nat} (hm : m < 2 ^ 53) :
    toNat? (ofDecimal false n 0) = some m ↔ n = m := by
  constructor
  · intro h
    rcases ofDecimal_whole n with hread | ⟨-, hread⟩
    · rw [hread] at h
      by_cases hn : n < 2 ^ 53
      · rw [toNat?_ofRatio_of_lt hn] at h
        exact Option.some.inj h
      · have hge := le_of_toNat?_ofRatio (Nat.not_lt.1 hn) h
        omega
    · rw [hread] at h
      have hge := le_of_toNat?_ofRatio (Nat.pow_le_pow_right (by decide) (by decide)) h
      omega
  · rintro rfl
    rcases ofDecimal_whole n with hread | ⟨hge, -⟩
    · rw [hread]
      exact toNat?_ofRatio_of_lt hm
    · omega

end Double
end Interchain
