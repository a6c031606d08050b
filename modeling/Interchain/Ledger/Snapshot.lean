/-
Snapshots: ledgers stored as documents of decimal texts.

A ledger is stored only if it can be restored, and the snapshot that counts is
the one taken last under exactly the same chain and module.
-/
import Interchain.Ledger.Basic
import Interchain.Time

namespace Interchain

structure SnapshotFields where
  totalSupply : String
  balances : List (String × String)
deriving DecidableEq

structure Snapshot where
  taken ::
  stateMachine : String
  moduleAddress : String
  fields : SnapshotFields
  takenAt : Timestamp
deriving DecidableEq

/-- A snapshot, taken at the start of 1970 if no time is given. -/
def Snapshot.mk (stateMachine moduleAddress : String) (fields : SnapshotFields)
    (takenAt : Timestamp := ⟨0⟩) : Snapshot :=
  ⟨stateMachine, moduleAddress, fields, takenAt⟩

namespace SnapshotFields

def ofState (s : LedgerState) : SnapshotFields :=
  ⟨toString s.totalSupply, s.balances.map (fun e => (e.1, toString e.2))⟩

def numeral (field t : String) : Except Cause Int :=
  match Decimal.parse? t with
  | none => .error (.snapshotNumeral field)
  | some n => .ok n

def readBalance (e : String × String) : Except Cause (String × Int) :=
  (numeral s!"balance of {e.1}" e.2).map (fun n => (e.1, n))

def toState (f : SnapshotFields) : Except Cause LedgerState := do
  let supply ← numeral "totalSupply" f.totalSupply
  let balances ← f.balances.mapM readBalance
  return ⟨supply, balances⟩

end SnapshotFields

/-- The snapshot is of the module with these names. -/
def Snapshot.IsOf (s : Snapshot) (stateMachine moduleAddress : String) : Prop :=
  s.stateMachine = stateMachine ∧ s.moduleAddress = moduleAddress

instance (s : Snapshot) (stateMachine moduleAddress : String) :
    Decidable (s.IsOf stateMachine moduleAddress) := inferInstanceAs (Decidable (_ ∧ _))

/-- Snapshots in the order in which they were stored. -/
abbrev Archive := List Snapshot

namespace Archive

def save (archive : Archive) (stateMachine moduleAddress : String) (s : LedgerState)
    (now : Timestamp := ⟨0⟩) : Except Cause (Snapshot × Archive) := do
  let _ ← Ledger.ofState s
  let snapshot := Snapshot.mk stateMachine moduleAddress (.ofState s) now
  return (snapshot, archive ++ [snapshot])

/-- The later of two snapshots; of two taken at once, the second. -/
def later (s : Option Snapshot) (t : Snapshot) : Snapshot :=
  match s with
  | some s => if t.takenAt.milliseconds < s.takenAt.milliseconds then s else t
  | none => t

/-- The snapshot of a module that was taken last. -/
def latest? (archive : Archive) (stateMachine moduleAddress : String) : Option Snapshot :=
  (archive.filter (fun s => s.IsOf stateMachine moduleAddress)).foldl
    (fun s t => some (later s t)) none

/-- Restores the ledger of the last snapshot of a module, if there is one. -/
def restoreLatest (archive : Archive) (stateMachine moduleAddress : String) :
    Except Cause (Option Ledger) :=
  match archive.latest? stateMachine moduleAddress with
  | none => .ok none
  | some snapshot => do
    let s ← snapshot.fields.toState
    let l ← Ledger.ofState s
    return some l

end Archive
end Interchain
