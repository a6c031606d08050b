/-
Reports: what a log says of a failure.

A refusal of the asset module is reported with the number of its code and with the
coordinates of its request, if it is bound to one.  Anything else is reported by its
text alone.  A value that was raised need not have a text, and then its report fails.
-/
import Interchain.Failure
import Interchain.Json.Value

namespace Interchain

structure Report where
  code : Option Nat
  text : String
  context : Option RequestContext
deriving DecidableEq

namespace Report

def ofError (e : ModuleError) : Report := ⟨some e.cause.code.number, e.cause.message, e.context⟩

def ofText (t : String) : Report := ⟨none, t, none⟩

def ofFailure : Failure → Report
  | .refused e => ofError e
  | .argument f => ofText f.message
  | .raised t => ofText t

/-- A value that holds a field of this name shows no text. -/
def textField : String := "toString"

mutual
/-- The text of a value: items are joined by commas, an item that is null has no
text of its own, and an object shows nothing of its fields. -/
def plain? : Json → Option String
  | .null => some "null"
  | .bool true => some "true"
  | .bool false => some "false"
  | .number x => some (Double.text x)
  | .string t => some t
  | .array xs => (plainItems? xs).map (String.intercalate ",")
  | .object fs => if (Table.get? textField fs).isSome then none else some "[object Object]"

def plainItems? : List Json → Option (List String)
  | [] => some []
  | .null :: xs => (plainItems? xs).map ("" :: ·)
  | x :: xs => (plain? x).bind (fun t => (plainItems? xs).map (t :: ·))
end

def textOf (j : Json) : Except ArgumentFault String :=
  match plain? j with
  | some t => .ok t
  | none => .error .noText

/-- The report of a value that stands in for a failure; it may be missing. -/
def ofValue : Option Json → Except ArgumentFault Report
  | none => .ok (ofText "undefined")
  | some j => (textOf j).map ofText

/-- The report of a failure raised with a value; with none, it has no words. -/
def ofRaised : Option Json → Except ArgumentFault Report
  | none => .ok (ofFailure (.raised ""))
  | some j => (textOf j).map (fun t => ofFailure (.raised t))

end Report

/-- What a gateway may raise: a failure, or any other value. -/
inductive Thrown
  | failure (f : Failure)
  | value (j : Option Json)

namespace Thrown

def report : Thrown → Except ArgumentFault Report
  | .failure f => .ok (.ofFailure f)
  | .value j => Report.ofValue j

/-- The failure that leaves a call.  A call reports what was raised before it raises that
again, so that a fault of the report comes in its place. -/
def toFailure : Thrown → Failure
  | .failure f => f
  | .value j =>
    match Report.ofValue j with
    | .ok r => .raised r.text
    | .error fault => .argument fault

end Thrown
end Interchain
