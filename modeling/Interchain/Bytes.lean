/-
Byte strings and 32-byte words.

Numbers are written most significant byte first.  Every quantity on the wire
takes whole words, so a byte string is followed by zeros up to a multiple of 32.
-/
import Interchain.Text.Digit

namespace Interchain

abbrev Bytes := List UInt8

def maxUint256 : Nat := 2 ^ 256 - 1

def maxUint64 : Nat := 2 ^ 64 - 1

namespace Bytes

/-- The number a byte string spells, most significant byte first. -/
def toNat (b : Bytes) : Nat := b.foldl (fun n x => n * 256 + x.toNat) 0

/-- The last `width` base-256 digits of a number, most significant first. -/
def ofNat : (width : Nat) → Nat → Bytes
  | 0, _ => []
  | w + 1, n => ofNat w (n / 256) ++ [UInt8.ofNat (n % 256)]

def word (n : Nat) : Bytes := ofNat 32 n

def paddedLength (n : Nat) : Nat := (n + 31) / 32 * 32

def pad (b : Bytes) : Bytes := b ++ List.replicate (paddedLength b.length - b.length) 0

theorem length_ofNat (w n : Nat) : (ofNat w n).length = w := by
  induction w generalizing n with
  | zero => rfl
  | succ w ih => simp only [ofNat, List.length_append, ih, List.length_singleton]

theorem length_word (n : Nat) : (word n).length = 32 := length_ofNat 32 n

theorem le_paddedLength (n : Nat) : n ≤ paddedLength n := by
  unfold paddedLength; omega

theorem length_pad (b : Bytes) : (pad b).length = paddedLength b.length := by
  have := le_paddedLength b.length
  simp only [pad, List.length_append, List.length_replicate]
  omega

/-! ## Numbers and their digits -/

theorem foldl_toNat (b : Bytes) (n : Nat) :
    b.foldl (fun n x => n * 256 + x.toNat) n = n * 256 ^ b.length + toNat b := by
  induction b generalizing n with
  | nil => simp [toNat]
  | cons x b ih =>
    rw [toNat, List.foldl_cons, List.foldl_cons, ih, ih (0 * 256 + x.toNat), List.length_cons,
      Nat.pow_succ', Nat.zero_mul, Nat.zero_add, Nat.add_mul, Nat.mul_assoc, Nat.add_assoc]

theorem toNat_append (a b : Bytes) : toNat (a ++ b) = toNat a * 256 ^ b.length + toNat b := by
  rw [toNat, List.foldl_append, foldl_toNat]
  rfl

theorem toNat_lt (b : Bytes) : toNat b < 256 ^ b.length := by
  induction b with
  | nil => decide
  | cons x b ih =>
    have hx := x.toNat_lt
    rw [← List.singleton_append, toNat_append, List.length_append, List.length_singleton,
      Nat.add_comm 1, Nat.pow_succ']
    have : toNat [x] = x.toNat := by simp [toNat]
    rw [this]
    have := Nat.mul_le_mul_right (256 ^ b.length) (Nat.succ_le_of_lt hx)
    rw [Nat.succ_mul] at this
    omega

/-- The digits of a number that fits spell it. -/
theorem toNat_ofNat {w n : Nat} (h : n < 256 ^ w) : toNat (ofNat w n) = n := by
  induction w generalizing n with
  | zero => rw [Nat.pow_zero, Nat.lt_one_iff] at h; rw [h]; rfl
  | succ w ih =>
    have hq : n / 256 < 256 ^ w := by rw [Nat.pow_succ'] at h; exact Nat.div_lt_of_lt_mul h
    have hb : toNat [UInt8.ofNat (n % 256)] = n % 256 := by simp [toNat]
    rw [ofNat, toNat_append, ih hq, hb]
    exact Nat.div_add_mod' n 256

/-- A byte string is the digits of the number it spells. -/
theorem ofNat_toNat (b : Bytes) : ofNat b.length (toNat b) = b := by
  have key : ∀ (w : Nat) (b : Bytes), b.length = w → ofNat w (toNat b) = b := by
    intro w
    induction w with
    | zero => intro b hb; rw [List.eq_nil_of_length_eq_zero hb]; rfl
    | succ w ih =>
      intro b hb
      have hne : b ≠ [] := by intro h; rw [h] at hb; cases hb
      obtain ⟨x, hx⟩ : ∃ x, b = b.dropLast ++ [x] :=
        ⟨b.getLast hne, (List.dropLast_concat_getLast hne).symm⟩
      have hl : b.dropLast.length = w := by rw [List.length_dropLast, hb]; rfl
      have hn : toNat b = toNat b.dropLast * 256 + x.toNat := by
        conv => lhs; rw [hx]
        rw [toNat_append]
        simp [toNat]
      have := x.toNat_lt
      rw [ofNat, hn]
      have hdiv : (toNat b.dropLast * 256 + x.toNat) / 256 = toNat b.dropLast := by omega
      have hmod : (toNat b.dropLast * 256 + x.toNat) % 256 = x.toNat := by omega
      rw [hdiv, hmod, ih _ hl, UInt8.ofNat_toNat, ← hx]
  exact key _ b rfl

end Bytes
end Interchain
