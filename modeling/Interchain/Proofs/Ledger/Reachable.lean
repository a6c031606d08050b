/-
The ledgers that the operations of a ledger can build, and what holds of them.

`Session.Reachable` is the transition system of a ledger in use: it starts empty or
from a restored state, is credited and debited, and opens and ends units.  Of every
session that is reached the accounts are distinct, the supply is the sum of the
balances, and it fits a word (`Reachable.sound`).  An open unit adds that what it
would go back to is sound as well.
-/
import Interchain.Proofs.Ledger.Journal
import Interchain.Proofs.Ledger.State

namespace Interchain
namespace Ledger

/-- Accounts are distinct, the supply is their sum, and it fits a word. -/
structure Sound (l : Ledger) : Prop where
  nodup : l.accounts.Nodup
  conserved : l.total = l.supply
  fits : l.supply ≤ maxUint256

theorem total_eq (l : Ledger) : l.total = Table.sum id l.balances := rfl

theorem total_apply (l : Ledger) (m : Movement) :
    (l.apply m).total + l.balance m.account = l.total + m.balance := by
  have h := Table.sum_put id m.account m.balance l.balances
  rw [Option.map_id] at h
  exact h

theorem balance_le_total (l : Ledger) (a : Address) : l.balance a ≤ l.total := by
  cases h : Table.get? a l.balances with
  | none => rw [balance, h]; exact Nat.zero_le _
  | some v =>
    rw [balance, h, total_eq]
    exact Table.le_sum_of_get? id h

theorem balance_apply_self (l : Ledger) (m : Movement) :
    (l.apply m).balance m.account = m.balance := by
  rw [balance, apply, Table.get?_put_self]
  rfl

theorem balance_apply_of_ne (l : Ledger) (m : Movement) {a : Address} (h : a ≠ m.account) :
    (l.apply m).balance a = l.balance a := by
  rw [balance, apply, Table.get?_put_of_ne h]
  rfl

theorem creditAccount_eq_ok {l : Ledger} {a : Address} {n : Nat} {m : Movement} :
    l.creditAccount a n = .ok m ↔
      m = l.raise a n ∧ l.supply + n ≤ maxUint256 ∧ l.balance a + n ≤ maxUint256 := by
  rw [creditAccount]
  split
  · next h => exact ⟨fun e => (nomatch e), fun e => by omega⟩
  · next h =>
    rw [Except.ok.injEq]
    exact ⟨fun e => ⟨e.symm, by omega, by omega⟩, fun e => e.1.symm⟩

theorem debitAccount_eq_ok {l : Ledger} {a : Address} {n : Nat} {m : Movement} :
    l.debitAccount a n = .ok m ↔ m = l.lower a n ∧ n ≤ l.balance a := by
  rw [debitAccount]
  split
  · next h => exact ⟨fun e => (nomatch e), fun e => by omega⟩
  · next h =>
    rw [Except.ok.injEq]
    exact ⟨fun e => ⟨e.symm, by omega⟩, fun e => e.1.symm⟩

theorem credit_eq_ok {l : Ledger} {t : String} {n : Int} {m : Movement} :
    l.credit t n = .ok m ↔
      ∃ k, amount n = .ok k ∧ ∃ a, account t = .ok a ∧ l.creditAccount a k = .ok m := by
  simp only [credit, bind_eq_ok]

theorem debit_eq_ok {l : Ledger} {t : String} {n : Int} {m : Movement} :
    l.debit t n = .ok m ↔
      ∃ k, amount n = .ok k ∧ ∃ a, account t = .ok a ∧ l.debitAccount a k = .ok m := by
  simp only [debit, bind_eq_ok]

/-! ## Sound ledgers -/

theorem sound_empty : Sound .empty := ⟨List.nodup_nil, rfl, Nat.zero_le _⟩

theorem Sound.raise {l : Ledger} (h : l.Sound) {a : Address} {n : Nat} {m : Movement}
    (hm : l.creditAccount a n = .ok m) : (l.apply m).Sound := by
  obtain ⟨rfl, hfits, -⟩ := creditAccount_eq_ok.1 hm
  refine ⟨Table.nodup_keys_put h.nodup, ?_, hfits⟩
  have ht := total_apply l (l.raise a n)
  have hc := h.conserved
  show _ = l.supply + n
  simp only [Ledger.raise] at ht ⊢
  omega

theorem Sound.lower {l : Ledger} (h : l.Sound) {a : Address} {n : Nat} {m : Movement}
    (hm : l.debitAccount a n = .ok m) : (l.apply m).Sound := by
  obtain ⟨rfl, hn⟩ := debitAccount_eq_ok.1 hm
  have hle := balance_le_total l a
  have hc := h.conserved
  refine ⟨Table.nodup_keys_put h.nodup, ?_, Nat.le_trans (Nat.sub_le _ _) h.fits⟩
  have ht := total_apply l (l.lower a n)
  show _ = l.supply - n
  simp only [Ledger.lower] at ht ⊢
  omega

theorem Sound.credit {l : Ledger} (h : l.Sound) {t : String} {n : Int} {m : Movement}
    (hm : l.credit t n = .ok m) : (l.apply m).Sound := by
  obtain ⟨k, _, a, _, hm⟩ := credit_eq_ok.1 hm
  exact h.raise hm

theorem Sound.debit {l : Ledger} (h : l.Sound) {t : String} {n : Int} {m : Movement}
    (hm : l.debit t n = .ok m) : (l.apply m).Sound := by
  obtain ⟨k, _, a, _, hm⟩ := debit_eq_ok.1 hm
  exact h.lower hm

theorem sound_ofState {s : LedgerState} {l : Ledger} (h : ofState s = .ok l) : l.Sound := by
  obtain ⟨⟨-, hnodup⟩, -, htotal, hfits⟩ := ofState_eq_ok.1 h
  exact ⟨hnodup, htotal, hfits⟩

/-! ## Sessions -/

namespace Session

/-- The sessions of a ledger: a new or a restored one, whatever is credited and debited,
and every unit that opens, commits or fails.  A unit inside another changes nothing by
opening or ending. -/
inductive Reachable : Session → Prop
  | new : Reachable (start .empty)
  | restored {s : LedgerState} {l : Ledger} (h : ofState s = .ok l) : Reachable (start l)
  | credit {s : Session} {t : String} {n : Int} {m : Movement} (hs : Reachable s)
      (h : s.ledger.credit t n = .ok m) : Reachable (s.move m)
  | debit {s : Session} {t : String} {n : Int} {m : Movement} (hs : Reachable s)
      (h : s.ledger.debit t n = .ok m) : Reachable (s.move m)
  | opened {s : Session} (hs : Reachable s) (h : s.journal = none) : Reachable s.opened
  | committed {s : Session} (hs : Reachable s) : Reachable s.commit
  | rolledBack {s : Session} (hs : Reachable s) : Reachable s.rollback

/-- The ledger is sound, and so is what an open unit would go back to. -/
structure Sound (s : Session) : Prop where
  ledger : s.ledger.Sound
  restores : s.journal ≠ none → ∃ l₀, l₀.Sound ∧ s.Restores l₀

theorem sound_iff_holds {s : Session} : s.Sound ↔ s.Holds Ledger.Sound :=
  ⟨fun h => ⟨h.ledger, h.restores⟩, fun h => ⟨h.ledger, h.restores⟩⟩

theorem sound_start {l : Ledger} (h : l.Sound) : (start l).Sound :=
  sound_iff_holds.2 (holds_start h)

theorem Sound.credit {s : Session} (h : s.Sound) {t : String} {n : Int} {m : Movement}
    (hm : s.ledger.credit t n = .ok m) : (s.move m).Sound :=
  sound_iff_holds.2 ((sound_iff_holds.1 h).move (h.ledger.credit hm))

theorem Sound.debit {s : Session} (h : s.Sound) {t : String} {n : Int} {m : Movement}
    (hm : s.ledger.debit t n = .ok m) : (s.move m).Sound :=
  sound_iff_holds.2 ((sound_iff_holds.1 h).move (h.ledger.debit hm))

theorem Sound.opened {s : Session} (h : s.Sound) : s.opened.Sound :=
  sound_iff_holds.2 (sound_iff_holds.1 h).opened

theorem Sound.commit {s : Session} (h : s.Sound) : s.commit.Sound := sound_start h.ledger

theorem Sound.rollback {s : Session} (h : s.Sound) : s.rollback.Sound :=
  sound_iff_holds.2 (sound_iff_holds.1 h).rollback

theorem Reachable.sound {s : Session} (h : s.Reachable) : s.Sound := by
  induction h with
  | new => exact sound_start sound_empty
  | restored h => exact sound_start (sound_ofState h)
  | credit _ h ih => exact ih.credit h
  | debit _ h ih => exact ih.debit h
  | opened _ _ ih => exact ih.opened
  | committed _ ih => exact ih.commit
  | rolledBack _ ih => exact ih.rollback

end Session

/-- A ledger outside any unit that the operations of a ledger have built. -/
def IsBuilt (l : Ledger) : Prop := (Session.start l).Reachable

theorem isBuilt_empty : IsBuilt .empty := .new

theorem IsBuilt.sound {l : Ledger} (h : l.IsBuilt) : l.Sound := (Session.Reachable.sound h).ledger

theorem Sound.balance_le_supply {l : Ledger} (h : l.Sound) (a : Address) :
    l.balance a ≤ l.supply := h.conserved ▸ balance_le_total l a

theorem Sound.entry_le_supply {l : Ledger} (h : l.Sound) {e : Address × Nat}
    (he : e ∈ l.balances) : e.2 ≤ l.supply := by
  have hle : e.2 ≤ l.total := Table.le_sum_of_get? id (Table.get?_of_mem h.nodup he)
  exact h.conserved ▸ hle

/-- A sound ledger with room in its supply has room in every account. -/
theorem Sound.creditAccount_eq_ok {l : Ledger} (hl : l.Sound) {n : Nat}
    (hroom : l.supply + n ≤ maxUint256) (a : Address) :
    l.creditAccount a n = .ok (l.raise a n) := by
  have hbalance := hl.balance_le_supply a
  exact Ledger.creditAccount_eq_ok.2 ⟨rfl, hroom, by omega⟩

end Ledger
end Interchain
