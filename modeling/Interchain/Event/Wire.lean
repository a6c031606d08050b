/-
Events as JSON text.

A message is written with its type, chain, time and payload in this order.  It is
read back if it is an object with a known type, texts for chain and time and an
object for payload; whatever else the object holds is dropped.
-/
import Interchain.Event.Basic
import Interchain.Json.Parser
import Interchain.Json.Printer

namespace Interchain

structure WireEvent where
  type : EventType
  stateMachine : String
  timestamp : Timestamp
  payload : List (String × Datum)

namespace WireEvent

def ofEvent (e : AssetEvent) : WireEvent :=
  ⟨e.body.type, e.stateMachine, e.timestamp, e.body.fields⟩

/-- The time of an event; a time with no text is null. -/
def timeJson (t : Timestamp) : Json :=
  match t.text? with
  | some text => .string text
  | none => .null

def toJson (e : WireEvent) : Json :=
  .object [("eventType", .string e.type.name), ("stateMachine", .string e.stateMachine),
    ("timestamp", timeJson e.timestamp), ("payload", (Datum.record e.payload).toJson)]

def serialize (e : WireEvent) : String := e.toJson.render

end WireEvent

structure RelayedEvent where
  type : EventType
  stateMachine : String
  timestamp : String
  payload : List (String × Json)

namespace RelayedEvent

inductive Fault
  | notJson
  | malformed
deriving DecidableEq

def Fault.message : Fault → String
  | .notJson => "Malformed JSON"
  | .malformed => "Malformed event message"

def ofJson? (j : Json) : Option RelayedEvent :=
  match j.field? "eventType", j.field? "stateMachine", j.field? "timestamp", j.field? "payload" with
  | some (.string type), some (.string chain), some (.string time), some (.object payload) =>
    (EventType.ofName? type).map (fun t => ⟨t, chain, time, payload⟩)
  | _, _, _, _ => none

def parse (message : String) : Except Fault RelayedEvent :=
  match Json.parse? message with
  | none => .error .notJson
  | some j =>
    match ofJson? j with
    | none => .error .malformed
    | some e => .ok e

def toJson (e : RelayedEvent) : Json :=
  .object [("eventType", .string e.type.name), ("stateMachine", .string e.stateMachine),
    ("timestamp", .string e.timestamp), ("payload", .object e.payload)]

end RelayedEvent
end Interchain
