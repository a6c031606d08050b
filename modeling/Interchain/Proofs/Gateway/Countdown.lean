/-
Counts that are rounded.

A count above 2 ^ 53 is a double, and one less than it is rounded.  The two least such doubles
take the count to what can be counted exactly, in one step; any greater one stays above them
(`lasts_of_third`).  So a count lasts for as many submissions up to 2 ^ 53, for one fewer at the
next two numbers, and for ever from then on (`ends_ofNat`, `lasts_forever`).
-/
import Interchain.Proofs.Double.Great
import Interchain.Proofs.Gateway.Faults

namespace Interchain
namespace Countdown

open Double

variable {c : Countdown} {x : Float} {n k : Nat}

/-- The count stays positive for so many submissions, and then it is over. -/
def Ends (c : Countdown) (n : Nat) : Prop := c.Lasts n ∧ (pred^[n] c).isPositive = false

theorem ends_whole (hn : n ≤ maxExact) : (ofNat n).Ends n := ⟨lasts_ofNat hn, over_ofNat hn⟩

theorem Ends.succ (hpositive : c.isPositive = true) (h : c.pred.Ends n) : c.Ends (n + 1) := by
  refine ⟨?_, h.2⟩
  rintro (_ | i) hi
  · exact hpositive
  · exact h.1 i (Nat.lt_of_succ_lt_succ hi)

theorem ofDouble_of_toNat? (h : toNat? x = some n) (hn : n ≤ maxExact) : ofDouble x = ofNat n := by
  rw [ofDouble, h, ofNat, dif_pos hn]
  exact dif_pos hn

/-! ## From 2 ^ 53 on -/

theorem ends_first (h : x.toBits.toNat = 1076 * 2 ^ 52) : (rounded x).Ends maxExact := by
  have hx := eq_ofBits h (by decide)
  have hless : toNat? (x - 1) = some (maxExact - 1) := by
    rw [hx]
    decide +kernel
  have hpositive : (rounded x).isPositive = true := by
    rw [hx]
    decide +kernel
  refine Ends.succ (n := maxExact - 1) hpositive ?_
  rw [pred, ofDouble_of_toNat? hless (Nat.sub_le _ _)]
  exact ends_whole (Nat.sub_le _ _)

theorem ends_second (h : x.toBits.toNat = 1076 * 2 ^ 52 + 1) :
    (rounded x).Ends (maxExact + 1) := by
  have hx := eq_ofBits h (by decide)
  have hless : toNat? (x - 1) = some maxExact := by
    rw [hx]
    decide +kernel
  have hpositive : (rounded x).isPositive = true := by
    rw [hx]
    decide +kernel
  refine Ends.succ hpositive ?_
  rw [pred, ofDouble_of_toNat? hless (Nat.le_refl _)]
  exact ends_whole (Nat.le_refl _)

/-- A double above 2 ^ 53 stays one as a count. -/
theorem ofDouble_great (h : Great x) (hlt : 1076 * 2 ^ 52 < x.toBits.toNat) :
    ofDouble x = .rounded x := by
  cases hn : toNat? x with
  | none => rw [ofDouble, hn]
  | some n =>
    rw [ofDouble, hn]
    exact dif_neg (Nat.not_le.2 (h.lt_of_toNat? hn hlt))

/-- The third double from 2 ^ 53 on is not counted down, and no greater one passes it by. -/
theorem sub_one_third (h : Great x) (hb : 1076 * 2 ^ 52 + 2 ≤ x.toBits.toNat) :
    Great (x - 1) ∧ 1076 * 2 ^ 52 + 2 ≤ (x - 1).toBits.toNat := by
  rcases Nat.lt_or_eq_of_le hb with hlt | hleast
  · exact h.sub_one (by decide) hlt
  · have hx := eq_ofBits hleast.symm (by decide)
    have hstays : (x - 1).toBits.toNat = x.toBits.toNat := by
      rw [hx]
      decide +kernel
    exact ⟨⟨hstays ▸ h.le_toBits, hstays ▸ h.toBits_le⟩, hstays ▸ hb⟩

theorem lasts_of_third (h : Great x) (hb : 1076 * 2 ^ 52 + 2 ≤ x.toBits.toNat) (n : Nat) :
    (rounded x).Lasts n := by
  induction n generalizing x with
  | zero => exact fun i hi => absurd hi (Nat.not_lt_zero i)
  | succ n ih =>
    obtain ⟨hgreat, hthird⟩ := sub_one_third h hb
    have hpred : (rounded x).pred = .rounded (x - 1) :=
      ofDouble_great hgreat (Nat.lt_of_lt_of_le (by decide) hthird)
    rintro (_ | i) hi
    · exact decide_eq_true h.pos
    · have hrest : (rounded x).pred.Lasts n := by
        rw [hpred]
        exact ih hgreat hthird
      exact hrest i (Nat.lt_of_succ_lt_succ hi)

/-! ## Counts of submissions -/

theorem ofNat_of_lt (hn : maxExact < n) : ofNat n = .rounded (ofInt n) :=
  dif_neg (Nat.not_le.2 hn)

/-- How many submissions a count lasts for, if it ends. -/
theorem ends_ofNat (hn : n ≤ maxExact + 2) :
    (ofNat n).Ends (if n ≤ maxExact then n else n - 1) := by
  by_cases hexact : n ≤ maxExact
  · rw [if_pos hexact]
    exact ends_whole hexact
  · rw [if_neg hexact, ofNat_of_lt (Nat.not_le.1 hexact)]
    obtain rfl | rfl : n = maxExact + 1 ∨ n = maxExact + 2 := by omega
    · exact ends_first (by decide +kernel)
    · exact ends_second (by decide +kernel)

theorem lasts_forever (hn : maxExact + 2 < n) (k : Nat) : (ofNat n).Lasts k := by
  rw [ofNat_of_lt (by omega)]
  exact lasts_of_third (great_ofInt (Nat.le_of_lt (Nat.lt_of_le_of_lt (by decide) hn)))
    (third_le_ofInt hn) k

/-- A count lasts for as many submissions, up to 2 ^ 53. -/
theorem lasts_min (n : Nat) : (ofNat n).Lasts (min n maxExact) := by
  by_cases hend : n ≤ maxExact + 2
  · refine (ends_ofNat hend).1.of_le ?_
    split
    · exact Nat.min_le_left _ _
    · omega
  · exact lasts_forever (Nat.not_le.1 hend) _

end Countdown
end Interchain
