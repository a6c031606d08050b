/-
Scripts: trees of ledger steps, in which a unit of work holds steps of its own.

A step of a unit that fails ends the unit, unless its failure is caught.  Running
a script records every step as it ends, those of a unit before the unit.
-/
import Interchain.Ledger.Session

namespace Interchain
namespace Ledger

/-- A step; `α` is what a unit may return. -/
inductive Step (α : Type)
  | credit (account : String) (amount : Int)
  | debit (account : String) (amount : Int)
  | balanceOf (account : String)
  | totalSupply
  | accounts
  | isConserved
  | toState
  | reload
  | atomically (steps : List (Bool × Step α)) (fail : Option String) (value : Option α)

namespace Step

def name {α : Type} : Step α → String
  | .credit _ _ => "credit"
  | .debit _ _ => "debit"
  | .balanceOf _ => "balanceOf"
  | .totalSupply => "totalSupply"
  | .accounts => "accounts"
  | .isConserved => "isConserved"
  | .toState => "toState"
  | .reload => "reload"
  | .atomically _ _ _ => "atomically"

end Step

inductive Answer (α : Type)
  | balance (n : Nat)
  | accounts (as : List Address)
  | conserved (b : Bool)
  | state (s : LedgerState)
  | nothing
  | value (a : α)

/-- A step that ended: its name, whether a unit holds it, its outcome and the ledger then. -/
structure Entry (α : Type) where
  name : String
  isInner : Bool
  outcome : Except Failure (Answer α)
  ledger : Ledger

namespace Step

variable {α : Type}

def record (name : String) (outcome : Except Failure (Answer α)) : Work (List (Entry α)) Unit := do
  let l ← Work.ledger
  Work.modify (fun es => es ++ [⟨name, true, outcome, l⟩])

def query {β : Type} (f : Ledger → Except Cause β) : Work (List (Entry α)) β := do
  let l ← Work.ledger
  Work.check (f l)

/-- What a unit answers once its steps are through. -/
def finish (fail : Option String) (value : Option α) : Except Failure (Answer α) :=
  match fail, value with
  | some text, _ => .error (.raised text)
  | none, some a => .ok (.value a)
  | none, none => .ok .nothing

mutual
def run : Step α → Work (List (Entry α)) (Answer α)
  | .credit t n => .balance <$> Work.move (fun l => l.credit t n)
  | .debit t n => .balance <$> Work.move (fun l => l.debit t n)
  | .balanceOf t => .balance <$> query (fun l => l.balanceOf t)
  | .totalSupply => .balance <$> query (fun l => .ok l.supply)
  | .accounts => .accounts <$> query (fun l => .ok l.accounts)
  | .isConserved => .conserved <$> query (fun l => .ok l.isConserved)
  | .toState => .state <$> query (fun l => .ok l.toState)
  | .reload => (fun _ => .nothing) <$> Work.reload
  | .atomically steps fail value =>
    Work.atomically (do
      runAll steps
      Work.ofExcept (finish fail value))

/-- Runs the steps of a unit up to the first failure that is not caught. -/
def runAll : List (Bool × Step α) → Work (List (Entry α)) Unit
  | [] => pure ()
  | (isCaught, step) :: rest => do
    let outcome ← Work.attempt (run step)
    record step.name outcome
    match outcome, isCaught with
    | .error f, false => Work.ofExcept (.error f)
    | _, _ => runAll rest
end

/-- Runs steps outside any unit one after another, whatever becomes of each. -/
def runEach : List (Step α) → Session → List (Entry α)
  | [], _ => []
  | step :: rest, s =>
    match run step (s, []) with
    | (outcome, s, es) => es ++ ⟨step.name, false, outcome, s.ledger⟩ :: runEach rest s

end Step
end Ledger
end Interchain
