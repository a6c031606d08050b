/-
Decimal text of natural numbers.

A number is read from one or more of the digits 0 to 9 and from nothing else:
no sign, no separator, no blank.  Leading zeros are taken.
-/
import Interchain.Text.Digit

namespace Interchain
namespace Decimal

def isNumeral (t : String) : Bool := !t.toList.isEmpty && t.toList.all Char.isDigit

def parse? (t : String) : Option Nat :=
  if isNumeral t then some (Nat.ofDigitChars 10 t.toList 0) else none

theorem isNumeral_repr (n : Nat) : isNumeral (Nat.repr n) = true := by
  simp only [isNumeral, Nat.toList_repr, Bool.and_eq_true, Bool.not_eq_true',
    List.isEmpty_eq_false_iff, List.all_eq_true]
  exact ⟨Nat.toDigits_ne_nil,
    fun c hc => Nat.isDigit_of_mem_toDigits (by decide) (by decide) hc⟩

theorem parse?_repr (n : Nat) : parse? (Nat.repr n) = some n := by
  rw [parse?, if_pos (isNumeral_repr n), Nat.toList_repr, Nat.ofDigitChars_ten_toDigits]

end Decimal
end Interchain
