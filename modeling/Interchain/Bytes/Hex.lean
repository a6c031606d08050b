/-
Hexadecimal text of byte strings.

A byte string is written as `0x` and two lower-case digits a byte.  Reading
takes digits of either case.
-/
import Interchain.Bytes
import Interchain.Text.Digit

namespace Interchain
namespace Hex

def encode : Bytes → List Char
  | [] => []
  | b :: bs => Digit.render (b.toNat / 16) :: Digit.render (b.toNat % 16) :: encode bs

def decode? : List Char → Option Bytes
  | [] => some []
  | [_] => none
  | a :: b :: rest =>
    match Digit.read? 16 a, Digit.read? 16 b, decode? rest with
    | some x, some y, some bs => some (UInt8.ofNat (16 * x.val + y.val) :: bs)
    | _, _, _ => none

/-- The last `width` digits of a number. -/
def ofNat : (width : Nat) → Nat → List Char
  | 0, _ => []
  | w + 1, n => ofNat w (n / 16) ++ [Digit.render (n % 16)]

def render (b : Bytes) : String := String.ofList ('0' :: 'x' :: encode b)

/-- Reads `0x` and whole bytes. -/
def parse? (t : String) : Option Bytes :=
  match t.toList with
  | '0' :: 'x' :: ds => decode? ds
  | _ => none

/-- Reads as `parse?` does and takes a capital X as well. -/
def parseEitherMark? (t : String) : Option Bytes :=
  match t.toList with
  | '0' :: 'x' :: ds => decode? ds
  | '0' :: 'X' :: ds => decode? ds
  | _ => none

def lowerText (t : String) : String := String.ofList (t.toList.map Digit.lower)

/-! ## What is written is read -/

theorem decode?_encode (b : Bytes) : decode? (encode b) = some b := by
  induction b with
  | nil => rfl
  | cons x b ih =>
    have hx := x.toNat_lt
    have h₁ := Digit.read?_render ⟨x.toNat / 16, by omega⟩
    have h₂ := Digit.read?_render ⟨x.toNat % 16, by omega⟩
    simp only at h₁ h₂
    simp only [encode, decode?, h₁, h₂, ih]
    rw [Nat.div_add_mod, UInt8.ofNat_toNat]

/-- What is read is written in lower case. -/
theorem encode_of_decode? {cs : List Char} {b : Bytes} (h : decode? cs = some b) :
    encode b = cs.map Digit.lower := by
  fun_induction decode? cs generalizing b with
  | case1 => cases h; rfl
  | case2 => cases h
  | case3 c d rest x y bs hbs hx hy ih =>
    cases h
    have hc := Digit.value?_of_read? hx
    have hd := Digit.value?_of_read? hy
    have hb : (UInt8.ofNat (16 * x.val + y.val)).toNat = 16 * x.val + y.val := by
      have := x.isLt
      have := y.isLt
      rw [UInt8.toNat_ofNat']
      omega
    have h₁ : (16 * x.val + y.val) / 16 = x.val := by have := y.isLt; omega
    have h₂ : (16 * x.val + y.val) % 16 = y.val := by have := y.isLt; omega
    rw [encode, hb, h₁, h₂, ih hbs, List.map_cons, List.map_cons, Digit.lower_of_value? hc,
      Digit.lower_of_value? hd]
  | case4 => cases h

theorem parse?_render (b : Bytes) : parse? (render b) = some b := by
  rw [parse?, render, String.toList_ofList]
  exact decode?_encode b

def digitsOf : (width : Nat) → Nat → List (Fin 16)
  | 0, _ => []
  | w + 1, n => digitsOf w (n / 16) ++ [⟨n % 16, Nat.mod_lt _ (by decide)⟩]

theorem ofNat_eq_map (w n : Nat) :
    ofNat w n = (digitsOf w n).map (fun v => Digit.render v.val) := by
  induction w generalizing n with
  | zero => rfl
  | succ w ih => simp only [ofNat, digitsOf, List.map_append, ih, List.map_cons, List.map_nil]

theorem length_digitsOf (w n : Nat) : (digitsOf w n).length = w := by
  induction w generalizing n with
  | zero => rfl
  | succ w ih => simp only [digitsOf, List.length_append, ih, List.length_singleton]

theorem number_digitsOf {w n : Nat} (h : n < 16 ^ w) : Digit.number (digitsOf w n) = n := by
  induction w generalizing n with
  | zero => simp only [Nat.pow_zero, Nat.lt_one_iff] at h; simp [h, digitsOf, Digit.number]
  | succ w ih =>
    have hq : n / 16 < 16 ^ w := by rw [Nat.pow_succ'] at h; exact Nat.div_lt_of_lt_mul h
    have := ih hq
    simp only [Digit.number] at this
    simp only [digitsOf, Digit.number, List.foldl_append, List.foldl_cons, List.foldl_nil, this]
    exact Nat.div_add_mod' n 16

end Hex
end Interchain
