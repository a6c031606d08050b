/-
Relays of the events of a module, one step at a time.

A relay goes through a copy of the outbox.  It waits for the broker with each event, and
while it waits, calls, other relays and connections go on as they like.  Once the broker
took the event, the relay drops the oldest event of the outbox as it is by then, and turns
to the next event of its copy.  The first event that is not taken ends it.
-/
import Interchain.Asset.Module
import Interchain.Event.Bus

namespace Interchain

/-- Hands an event to the publishing client, which is yet to answer. -/
def EventBus.send {η : Type} (b : EventBus η) (e : WireEvent) : Except Failure (EventBus η) :=
  if b.hasPublisher && b.isConnected then
    .ok (b.logCalls [.request .publisher .publish [b.channel e.type, e.serialize]])
  else .error EventBus.notConnected

/-- What a relay waits for, with the events of its copy that are left. -/
inductive RelayStage
  /-- The client has the event and is yet to answer. -/
  | sent (event : AssetEvent) (rest : List AssetEvent)
  /-- It is known what became of the event, and the relay is yet to go on. -/
  | answered (event : AssetEvent) (rest : List AssetEvent) (answer : Except Failure Unit)
  | ended (result : Except Failure Nat)

/-- A relay with the number of events it published so far. -/
structure Relay where
  published : Nat
  stage : RelayStage

namespace Relay

variable {η : Type}

def turn (published : Nat) (b : EventBus η) : (left : List AssetEvent) → Relay × EventBus η
  | [] => (⟨published, .ended (.ok published)⟩, b)
  | e :: rest =>
    match b.send (.ofEvent e) with
    | .error f => (⟨published, .answered e rest (.error f)⟩, b)
    | .ok b => (⟨published, .sent e rest⟩, b)

def start (m : AssetModule) (b : EventBus η) : Relay × EventBus η := turn 0 b m.outbox

/-- The broker took the event that the relay waits with, or gave a reason why not. -/
def settle (answer : Option String) (r : Relay) : Relay :=
  match r.stage, answer with
  | .sent e rest, none => { r with stage := .answered e rest (.ok ()) }
  | .sent e rest, some reason => { r with stage := .answered e rest (.error (.raised reason)) }
  | .answered _ _ _, _ | .ended _, _ => r

/-- Goes on once it is known what became of the event. -/
def resume (r : Relay) (m : AssetModule) (b : EventBus η) : Relay × AssetModule × EventBus η :=
  match r.stage with
  | .answered _ rest (.ok ()) =>
    let (r, b) := turn (r.published + 1) b rest
    (r, m.discardEvents 1, b)
  | .answered _ _ (.error f) => ({ r with stage := .ended (.error f) }, m, b)
  | .sent _ _ | .ended _ => (r, m, b)

/-- The event that the broker took and that is yet to be dropped. -/
def inHand (r : Relay) : List AssetEvent :=
  match r.stage with
  | .answered e _ (.ok ()) => [e]
  | .answered _ _ (.error _) | .sent _ _ | .ended _ => []

def hasEnded (r : Relay) : Bool :=
  match r.stage with
  | .ended _ => true
  | .sent _ _ | .answered _ _ _ => false

end Relay
end Interchain
