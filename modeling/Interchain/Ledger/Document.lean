/-
Rules for stored snapshot documents, in which any field may be missing.

Every text is required, and an empty one counts as missing.  The supply and the
balances have to be decimal numerals.
-/
import Interchain.Ledger.Snapshot

namespace Interchain

structure BalanceDocument where
  account : Option String
  balance : Option String
deriving DecidableEq

structure SnapshotDocument where
  stateMachine : Option String
  moduleAddress : Option String
  totalSupply : Option String
  balances : List BalanceDocument
deriving DecidableEq

namespace SnapshotDocument

inductive Breach
  | required
  | pattern
deriving DecidableEq

def Breach.name : Breach → String
  | .required => "required"
  | .pattern => "regexp"

/-- A field that may not be missing. -/
def required (path : String) : Option String → List (String × Breach)
  | none => [(path, .required)]
  | some t => if t.toList.isEmpty then [(path, .required)] else []

/-- A field that may not be missing and has to be a numeral. -/
def numeral (path : String) (t : Option String) : List (String × Breach) :=
  match required path t, t with
  | [], some t => if Decimal.isNumeral t then [] else [(path, .pattern)]
  | breaches, _ => breaches

def balanceBreaches (i : Nat) (b : BalanceDocument) : List (String × Breach) :=
  required s!"balances.{i}.account" b.account ++ numeral s!"balances.{i}.balance" b.balance

/-- Every rule that a document breaks, with the path of the field, sorted by path. -/
def breaches (d : SnapshotDocument) : List (String × Breach) :=
  let all := required "stateMachine" d.stateMachine ++ required "moduleAddress" d.moduleAddress ++
    numeral "totalSupply" d.totalSupply ++ (d.balances.mapIdx balanceBreaches).flatten
  all.mergeSort (fun a b => a.1 ≤ b.1)

/-- The document of a snapshot. -/
def ofSnapshot (s : Snapshot) : SnapshotDocument :=
  ⟨some s.stateMachine, some s.moduleAddress, some s.fields.totalSupply,
    s.fields.balances.map (fun e => ⟨some e.1, some e.2⟩)⟩

end SnapshotDocument
end Interchain
