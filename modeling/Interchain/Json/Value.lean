/-
JSON values.

Numbers are doubles.  The keys of an object are distinct; keys that are array
indices stand first, in ascending order, and the others follow in the order in
which they first appeared.
-/
import Interchain.Double
import Interchain.Table
import Interchain.Text.Decimal

namespace Interchain

inductive Json
  | null
  | bool (value : Bool)
  | number (value : Float)
  | string (text : String)
  | array (items : List Json)
  | object (fields : List (String × Json))

namespace Json

/-- An integer as the nearest double. -/
def int (n : Int) : Json := .number (Double.ofInt n)

def field? (k : String) : Json → Option Json
  | .object fs => Table.get? k fs
  | _ => none

/-- The number of a key that is an array index: a numeral with no leading zero, below 2 ^ 32 - 1. -/
def index? (k : String) : Option Nat :=
  match Decimal.parse? k with
  | some n => if n < 2 ^ 32 - 1 ∧ Nat.repr n = k then some n else none
  | none => none

/-- Puts a field among fields with smaller and greater indices. -/
def insertIndex (n : Nat) (f : String × Json) : List (Nat × (String × Json)) →
    List (Nat × (String × Json))
  | [] => [(n, f)]
  | (m, g) :: rest => if n < m then (n, f) :: (m, g) :: rest else (m, g) :: insertIndex n f rest

/-- An object of fields as they were written: of a repeated key the last value counts. -/
def ofFields (fs : List (String × Json)) : Json :=
  let distinct := fs.foldl (fun (t : Table String Json) f => Table.put f.1 f.2 t) []
  let indexed := distinct.foldl (fun acc f =>
    match index? f.1 with
    | some n => insertIndex n f acc
    | none => acc) []
  .object (indexed.map Prod.snd ++ distinct.filter (fun f => (index? f.1).isNone))

end Json
end Interchain
