/-
Decimal texts of integers.

No two integers have one text: a natural number is read back from its own, and a negative one
is written with a sign that no natural number has.
-/
import Interchain.Text.Decimal

namespace Interchain

theorem repr_injective {m n : Nat} (h : Nat.repr m = Nat.repr n) : m = n := by
  have hparse := Decimal.parse?_repr m
  rw [h, Decimal.parse?_repr, Option.some.injEq] at hparse
  exact hparse.symm

theorem toList_toString_negSucc (n : Nat) :
    (toString (Int.negSucc n)).toList = '-' :: (Nat.repr (n + 1)).toList :=
  String.toList_append

theorem repr_ne_toString_negSucc (m n : Nat) : Nat.repr m ≠ toString (Int.negSucc n) := by
  intro h
  have hminus : '-' ∈ (Nat.repr m).toList := by
    rw [h, toList_toString_negSucc]
    exact List.mem_cons_self
  rw [Nat.toList_repr] at hminus
  have hdigit := Nat.isDigit_of_mem_toDigits (by decide) (by decide) hminus
  exact absurd hdigit (by decide)

theorem toString_injective {m n : Int} (h : toString m = toString n) : m = n := by
  cases m with
  | ofNat m =>
    cases n with
    | ofNat n => exact congrArg Int.ofNat (repr_injective h)
    | negSucc n => exact absurd h (repr_ne_toString_negSucc m n)
  | negSucc m =>
    cases n with
    | ofNat n => exact absurd h.symm (repr_ne_toString_negSucc n m)
    | negSucc n =>
      have hlist := congrArg String.toList h
      rw [toList_toString_negSucc, toList_toString_negSucc, List.cons.injEq] at hlist
      have hrepr := repr_injective (String.toList_injective hlist.2)
      exact congrArg Int.negSucc (Nat.succ.inj hrepr)

end Interchain
