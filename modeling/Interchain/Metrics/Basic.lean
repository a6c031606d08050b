/-
Metrics of asset modules.

Counters are kept by label in the order of their first use, and the supply of
each chain as of its module's last committed call.
-/
import Interchain.Failure
import Interchain.Table

namespace Interchain

abbrev Tally (κ : Type) := Table κ Nat

namespace Tally

variable {κ : Type} [DecidableEq κ]

def count (t : Tally κ) (k : κ) : Nat := (Table.get? k t).getD 0

def bump (t : Tally κ) (k : κ) : Tally κ := Table.put k (t.count k + 1) t

end Tally

inductive DispatchOutcome
  | accepted
  | rejected
deriving DecidableEq

def DispatchOutcome.name : DispatchOutcome → String
  | .accepted => "accepted"
  | .rejected => "rejected"

inductive EntryPoint
  | transfer
  | dispatchGet
  | mint
  | onAccept
  | onPostResponse
  | onGetResponse
  | onPostTimeout
  | onGetTimeout
deriving DecidableEq

def EntryPoint.name : EntryPoint → String
  | .transfer => "transfer"
  | .dispatchGet => "dispatchGet"
  | .mint => "mint"
  | .onAccept => "onAccept"
  | .onPostResponse => "onPostResponse"
  | .onGetResponse => "onGetResponse"
  | .onPostTimeout => "onPostTimeout"
  | .onGetTimeout => "onGetTimeout"

/-- What became of a call: it committed, or it failed under a name. -/
inductive CallOutcome
  | ok
  | failed (name : String)
deriving DecidableEq

def CallOutcome.name : CallOutcome → String
  | .ok => "ok"
  | .failed name => name

inductive LedgerOperation
  | burn
  | mint
  | refund
deriving DecidableEq

def LedgerOperation.name : LedgerOperation → String
  | .burn => "burn"
  | .mint => "mint"
  | .refund => "refund"

structure Metrics where
  dispatches : Tally (SubmissionKind × DispatchOutcome)
  acknowledgementFailures : Nat
  invocations : Tally (EntryPoint × CallOutcome)
  ledgerOperations : Tally LedgerOperation
  supplies : Table String Nat
deriving DecidableEq

namespace Metrics

def zero : Metrics := ⟨[], 0, [], [], []⟩

def dispatched (m : Metrics) (k : SubmissionKind) (o : DispatchOutcome) : Metrics :=
  { m with dispatches := m.dispatches.bump (k, o) }

def acknowledgementFailed (m : Metrics) : Metrics :=
  { m with acknowledgementFailures := m.acknowledgementFailures + 1 }

def invoked (m : Metrics) (e : EntryPoint) (o : CallOutcome) : Metrics :=
  { m with invocations := m.invocations.bump (e, o) }

def operated (m : Metrics) (o : LedgerOperation) : Metrics :=
  { m with ledgerOperations := m.ledgerOperations.bump o }

def supplied (m : Metrics) (chain : String) (n : Nat) : Metrics :=
  { m with supplies := Table.put chain n m.supplies }

end Metrics
end Interchain
