/-
The ledger: a balance for each account and the total supply.

Every mutation moves one balance and the supply by the same amount.  Accounts are
kept in the order in which a mutation first touched them, and are named by any
spelling of their address.
-/
import Interchain.Address.Reread
import Interchain.Failure
import Interchain.Table

namespace Interchain

structure Ledger where
  balances : Table Address Nat
  supply : Nat
deriving DecidableEq

/-- A ledger as it is handed over: accounts are texts and amounts any integers. -/
structure LedgerState where
  totalSupply : Int
  balances : List (String × Int)
deriving DecidableEq

namespace Ledger

def empty : Ledger := ⟨[], 0⟩

def account (t : String) : Except Cause Address :=
  match Address.parse? t with
  | none => .error (.notAddress "account")
  | some a => .ok a

/-- The account that the text of an address names. -/
def holder (a : Address) : Except Cause Address :=
  match a.reread with
  | .error _ => .error (.notAddress "account")
  | .ok a => .ok a

theorem account_render (a : Address) : account a.render = holder a := by
  rw [account, Address.parse?, Address.parse_render, holder]
  cases a.reread <;> rfl

/-- The balance of an account; an account never touched has none. -/
def balance (l : Ledger) (a : Address) : Nat := (Table.get? a l.balances).getD 0

def balanceOf (l : Ledger) (t : String) : Except Cause Nat := (account t).map l.balance

def accounts (l : Ledger) : List Address := Table.keys l.balances

def total (l : Ledger) : Nat := Table.sum id l.balances

def isConserved (l : Ledger) : Bool := l.total == l.supply

def amount (n : Int) : Except Cause Nat :=
  if n < 0 ∨ (maxUint256 : Int) < n then .error (.amountRange n) else .ok n.toNat

/-- A change of one balance and of the supply, as they are after it. -/
structure Movement where
  account : Address
  balance : Nat
  supply : Nat
deriving DecidableEq

def apply (l : Ledger) (m : Movement) : Ledger :=
  ⟨Table.put m.account m.balance l.balances, m.supply⟩

def raise (l : Ledger) (a : Address) (n : Nat) : Movement := ⟨a, l.balance a + n, l.supply + n⟩

def lower (l : Ledger) (a : Address) (n : Nat) : Movement := ⟨a, l.balance a - n, l.supply - n⟩

/-- Credits an account unless a balance or the supply would exceed a word. -/
def creditAccount (l : Ledger) (a : Address) (n : Nat) : Except Cause Movement :=
  if maxUint256 < l.supply + n ∨ maxUint256 < l.balance a + n then .error (.creditOverflow n a)
  else .ok (l.raise a n)

/-- Debits an account that has the amount. -/
def debitAccount (l : Ledger) (a : Address) (n : Nat) : Except Cause Movement :=
  if l.balance a < n then .error (.insufficientBalance a.render (l.balance a) n)
  else .ok (l.lower a n)

/-- Credits an amount to the account that a text names. -/
def credit (l : Ledger) (t : String) (n : Int) : Except Cause Movement := do
  let k ← amount n
  let a ← account t
  l.creditAccount a k

/-- Debits an amount from the account that a text names. -/
def debit (l : Ledger) (t : String) (n : Int) : Except Cause Movement := do
  let k ← amount n
  let a ← account t
  l.debitAccount a k

def toState (l : Ledger) : LedgerState :=
  ⟨l.supply, l.balances.map (fun e => (e.1.render, Int.ofNat e.2))⟩

/-- Takes in handed-over balances after those in `t`. -/
def readBalances : Table Address Nat → List (String × Int) → Except Cause (Table Address Nat)
  | t, [] => .ok t
  | t, (name, n) :: rest =>
    match account name with
    | .error c => .error c
    | .ok a =>
      if (Table.get? a t).isSome then .error (.duplicateAccount a)
      else if n < 0 ∨ (maxUint256 : Int) < n then .error (.balanceRange a)
      else readBalances (t ++ [(a, n.toNat)]) rest

/-- Restores a ledger.  Its accounts have to be distinct, its balances within a
word, and its supply their sum and within a word too. -/
def ofState (s : LedgerState) : Except Cause Ledger :=
  match readBalances [] s.balances with
  | .error c => .error c
  | .ok t =>
    let sum := Table.sum id t
    if (sum : Int) ≠ s.totalSupply then .error (.supplyMismatch s.totalSupply sum)
    else if maxUint256 < sum then .error .supplyOverflow
    else .ok ⟨t, sum⟩

end Ledger
end Interchain
