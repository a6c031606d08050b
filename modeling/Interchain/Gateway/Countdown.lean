/-
Counts that run down by one, kept in double precision.

A natural number up to 2 ^ 53 runs down exactly.  Any other number becomes the
double nearest to one less, so that a great one may stay as it is and a broken one
ends below zero.
-/
import Interchain.Double

namespace Interchain

inductive Countdown
  | whole (n : Nat) (le_maxExact : n ≤ Double.maxExact)
  | rounded (x : Float)

namespace Countdown

def zero : Countdown := .whole 0 (Nat.zero_le _)

def ofDouble (x : Float) : Countdown :=
  match Double.toNat? x with
  | some n => if h : n ≤ Double.maxExact then .whole n h else .rounded x
  | none => .rounded x

/-- The count of a natural number, or of the double nearest to it. -/
def ofNat (n : Nat) : Countdown :=
  if h : n ≤ Double.maxExact then .whole n h else .rounded (Double.ofInt n)

def toDouble : Countdown → Float
  | .whole n _ => Double.ofInt n
  | .rounded x => x

def isPositive : Countdown → Bool
  | .whole n _ => 0 < n
  | .rounded x => 0 < x

def pred : Countdown → Countdown
  | .whole n h => .whole (n - 1) (Nat.le_trans (Nat.sub_le n 1) h)
  | .rounded x => ofDouble (x - 1)

theorem isPositive_ofNat {n : Nat} (h : n ≤ Double.maxExact) :
    (ofNat n).isPositive = decide (0 < n) := by
  simp only [ofNat, h, dif_pos, isPositive]

theorem pred_ofNat {n : Nat} (h : n < Double.maxExact) : (ofNat (n + 1)).pred = ofNat n := by
  simp only [ofNat, Nat.succ_le_of_lt h, Nat.le_of_lt h, dif_pos, pred, Nat.add_sub_cancel]

end Countdown
end Interchain
