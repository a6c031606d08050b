/-
Units of work on a ledger.

While a unit is open its journal notes, for every account that the unit touches,
the balance before the first touch.  A unit that fails replays its journal
backwards: an account that was there gets its balance back, and one that the unit
created goes.  A unit opened inside another joins it: it keeps no journal of its
own, and what it did stands or falls with the outer one.
-/
import Interchain.Ledger.Basic

namespace Interchain
namespace Ledger

/-- What an open unit needs to take itself back: accounts with the balance they had
before it, the account touched last coming first, and the supply at its start. -/
structure Journal where
  entries : List (Address × Option Nat)
  supply : Nat
deriving DecidableEq

namespace Journal

def opened (l : Ledger) : Journal := ⟨[], l.supply⟩

/-- Notes the balance of an account, unless the account is noted already. -/
def note (j : Journal) (a : Address) (previous : Option Nat) : Journal :=
  if a ∈ j.entries.map Prod.fst then j else ⟨(a, previous) :: j.entries, j.supply⟩

/-- Puts an account back to what it was. -/
def restore (t : Table Address Nat) : Address × Option Nat → Table Address Nat
  | (a, none) => Table.erase a t
  | (a, some n) => Table.put a n t

/-- Puts every noted account back, the one touched last first, and the supply. -/
def undo (j : Journal) (l : Ledger) : Ledger := ⟨j.entries.foldl restore l.balances, j.supply⟩

end Journal

/-- A ledger in use, and the journal of the unit that is open, if one is. -/
structure Session where
  ledger : Ledger
  journal : Option Journal
deriving DecidableEq

namespace Session

def start (l : Ledger) : Session := ⟨l, none⟩

def opened (s : Session) : Session := ⟨s.ledger, some (.opened s.ledger)⟩

def commit (s : Session) : Session := ⟨s.ledger, none⟩

def rollback (s : Session) : Session :=
  match s.journal with
  | some j => ⟨j.undo s.ledger, none⟩
  | none => s

/-- Makes a movement, noting its account if a unit is open. -/
def move (s : Session) (m : Movement) : Session :=
  ⟨s.ledger.apply m,
    s.journal.map (fun j => j.note m.account (Table.get? m.account s.ledger.balances))⟩

/-- Replaces the ledger by one restored from its own state, outside any unit. -/
def reload (s : Session) : Except Failure Unit × Session :=
  match ofState s.ledger.toState with
  | .ok l => (.ok (), start l)
  | .error c => (.error (.ofCause c), s)

end Session

/-! ## Work -/

/-- Work on a ledger that carries a state of its own along.  It gives a value or fails,
and either way leaves both as far as it got. -/
def Work (ρ α : Type) : Type := Session × ρ → Except Failure α × Session × ρ

namespace Work

variable {ρ α β : Type}

instance : Monad (Work ρ) where
  pure a := fun s => (.ok a, s)
  bind x f := fun s =>
    match x s with
    | (.ok a, s) => f a s
    | (.error e, s) => (.error e, s)

def ofExcept (r : Except Failure α) : Work ρ α := fun s => (r, s)

/-- An outcome that is known, with a refusal bound to no request. -/
def check (r : Except Cause α) : Work ρ α := ofExcept (refuse r)

def ledger : Work ρ Ledger := fun s => (.ok s.1.ledger, s)

def modify (f : ρ → ρ) : Work ρ Unit := fun s => (.ok (), s.1, f s.2)

/-- Makes a movement and gives the new balance of its account. -/
def move (f : Ledger → Except Cause Movement) : Work ρ Nat := fun s =>
  match f s.1.ledger with
  | .ok m => (.ok m.balance, s.1.move m, s.2)
  | .error c => (.error (.ofCause c), s)

/-- Replaces the ledger by one restored from its own state. -/
def reload : Work ρ Unit := fun s =>
  match s.1.reload with
  | (r, t) => (r, t, s.2)

/-- Runs work and gives its outcome, so that a failure goes no further. -/
def attempt (work : Work ρ α) : Work ρ (Except Failure α) := fun s =>
  match work s with
  | (r, s) => (.ok r, s)

/-- Runs work as one unit.  What it carries along is not taken back. -/
def atomically (work : Work ρ α) : Work ρ α := fun s =>
  match s.1.journal with
  | some _ => work s
  | none =>
    match work (s.1.opened, s.2) with
    | (.ok a, t, r) => (.ok a, t.commit, r)
    | (.error e, t, r) => (.error e, t.rollback, r)

end Work
end Ledger
end Interchain
