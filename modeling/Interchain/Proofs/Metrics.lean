/-
What a count adds to the metrics.

The numbers that the metrics show are their readings: how often a ledger operation was made, how
many dispatches of a kind were accepted, how often an entry point was called and how often it
returned, and how many acknowledgements failed.  What is counted raises the readings that it
belongs to by one, and no others.
-/
import Interchain.Metrics.Basic

namespace Interchain

/-! ## Tallies -/

namespace Tally

variable {κ : Type} [DecidableEq κ]

def total (p : κ → Bool) : Tally κ → Nat
  | [] => 0
  | e :: t => (if p e.1 then e.2 else 0) + total p t

theorem count_bump (t : Tally κ) (j k : κ) :
    (t.bump k).count j = t.count j + if j = k then 1 else 0 := by
  rw [bump, count]
  split
  · next heq =>
    rw [heq, Table.get?_put_self]
    rfl
  · next hne =>
    rw [Table.get?_put_of_ne hne]
    rfl

theorem total_put (p : κ → Bool) (k : κ) (n : Nat) (t : Tally κ) :
    total p (Table.put k n t) + (if p k then t.count k else 0) =
      total p t + if p k then n else 0 := by
  induction t with
  | nil =>
    show (if p k then n else 0) + 0 + (if p k then 0 else 0) = 0 + _
    rw [ite_self]
    omega
  | cons e t ih =>
    obtain ⟨j, m⟩ := e
    rw [Table.put, count, Table.get?]
    by_cases h : j = k
    · rw [if_pos h, if_pos h, h]
      show (if p k then n else 0) + total p t + (if p k then m else 0) =
        (if p k then m else 0) + total p t + _
      omega
    · rw [if_neg h, if_neg h]
      show (if p j then m else 0) + total p (Table.put k n t) + (if p k then count t k else 0) =
        (if p j then m else 0) + total p t + _
      omega

theorem total_bump (p : κ → Bool) (t : Tally κ) (k : κ) :
    (t.bump k).total p = t.total p + if p k then 1 else 0 := by
  have hput := t.total_put p k (t.count k + 1)
  rw [bump]
  split at hput
  · next h =>
    rw [if_pos h]
    omega
  · next h =>
    rw [if_neg h]
    omega

end Tally

/-! ## Readings -/

inductive Reading
  | operation (o : LedgerOperation)
  | accepted (kind : SubmissionKind)
  | called (entry : EntryPoint)
  | returned (entry : EntryPoint)
  | unacknowledged
deriving DecidableEq

namespace Metrics

def isOf (entry : EntryPoint) (k : EntryPoint × CallOutcome) : Bool := k.1 = entry

def isSuccessOf (entry : EntryPoint) (k : EntryPoint × CallOutcome) : Bool :=
  k.1 = entry && k.2.name == CallOutcome.ok.name

def read (mx : Metrics) : Reading → Nat
  | .operation o => mx.ledgerOperations.count o
  | .accepted kind => mx.dispatches.count (kind, .accepted)
  | .called entry => mx.invocations.total (isOf entry)
  | .returned entry => mx.invocations.total (isSuccessOf entry)
  | .unacknowledged => mx.acknowledgementFailures

variable (mx : Metrics) (r : Reading)

theorem read_zero : zero.read r = 0 := by
  cases r <;> rfl

theorem read_operated (o : LedgerOperation) :
    (mx.operated o).read r = mx.read r + if r = .operation o then 1 else 0 := by
  cases r with
  | operation o' => simp only [read, operated, Tally.count_bump, Reading.operation.injEq]
  | accepted | called | returned | unacknowledged => rfl

theorem read_dispatched (kind : SubmissionKind) (o : DispatchOutcome) :
    (mx.dispatched kind o).read r =
      mx.read r + if r = .accepted kind ∧ o = .accepted then 1 else 0 := by
  cases r with
  | accepted kind' =>
    simp only [read, dispatched, Tally.count_bump, Prod.mk.injEq, Reading.accepted.injEq,
      eq_comm (a := o)]
  | operation | called | returned | unacknowledged => rfl

theorem read_acknowledgementFailed :
    mx.acknowledgementFailed.read r = mx.read r + if r = .unacknowledged then 1 else 0 := by
  cases r with
  | unacknowledged => rfl
  | operation | accepted | called | returned => rfl

theorem read_invoked (entry : EntryPoint) (o : CallOutcome) :
    (mx.invoked entry o).read r = mx.read r +
      if r = .called entry ∨ r = .returned entry ∧ o.name = CallOutcome.ok.name then 1 else 0 := by
  cases r with
  | called entry' =>
    simp only [read, invoked, Tally.total_bump, isOf, decide_eq_true_eq, Reading.called.injEq,
      eq_comm (a := entry), reduceCtorEq, false_and, or_false]
  | returned entry' =>
    simp only [read, invoked, Tally.total_bump, isSuccessOf, Bool.and_eq_true, decide_eq_true_eq,
      beq_iff_eq, Reading.returned.injEq, eq_comm (a := entry), reduceCtorEq, false_or]
  | operation | accepted | unacknowledged => rfl

theorem read_supplied (chain : String) (n : Nat) : (mx.supplied chain n).read r = mx.read r := by
  cases r <;> rfl

end Metrics

theorem Failure.outcome_ne_ok (f : Failure) : f.outcome ≠ CallOutcome.ok.name := by
  cases f with
  | refused e =>
    show e.cause.code.name ≠ _
    cases e.cause.code <;> decide
  | argument | raised => show "Internal" ≠ "ok"; decide

end Interchain
