/-
The event bus: a client that publishes, a client that subscribes, and handlers
for each type of event.

Each request to a broker may be refused.  What the bus changed before the request
stays changed.  A listener is put on the subscribing client once both clients are
connected; it outlives a disconnection and hands messages to whatever handlers
the bus has then.
-/
import Interchain.Event.Wire
import Interchain.Failure

namespace Interchain

inductive BusRole
  | publisher
  | subscriber
deriving DecidableEq

def BusRole.name : BusRole → String
  | .publisher => "publisher"
  | .subscriber => "subscriber"

inductive BrokerMethod
  | publish
  | subscribe
  | unsubscribe
  | quit
deriving DecidableEq

def BrokerMethod.name : BrokerMethod → String
  | .publish => "publish"
  | .subscribe => "subscribe"
  | .unsubscribe => "unsubscribe"
  | .quit => "quit"

def BrokerMethod.ofName? (t : String) : Option BrokerMethod :=
  [BrokerMethod.publish, .subscribe, .unsubscribe, .quit].find? (fun m => m.name == t)

inductive ClientCall
  | created (role : BusRole)
  | request (role : BusRole) (method : BrokerMethod) (arguments : List String)
  | dropped (role : BusRole)
deriving DecidableEq

/-- The answers a broker will give to each method, a refusal being a text.  Once
they are used up it agrees. -/
structure Broker where
  answers : Table BrokerMethod (List (Option String))

namespace Broker

def agreeing : Broker := ⟨[]⟩

def script (b : Broker) (m : BrokerMethod) (xs : List (Option String)) : Broker :=
  ⟨Table.put m xs b.answers⟩

def answer (b : Broker) (m : BrokerMethod) : Option String × Broker :=
  match Table.get? m b.answers with
  | some (x :: xs) => (x, b.script m xs)
  | some [] | none => (none, b)

end Broker

/-- A bus with handlers `η` and the calls made of its clients so far. -/
structure EventBus (η : Type) where
  channelRoot : String
  hasPublisher : Bool
  hasSubscriber : Bool
  handlers : Table EventType (List η)
  isConnected : Bool
  isListening : Bool
  broker : Broker
  calls : List ClientCall

namespace EventBus

variable {η : Type}

def new (channelRoot : String) : EventBus η :=
  ⟨channelRoot, false, false, [], false, false, .agreeing, []⟩

def channel (b : EventBus η) (t : EventType) : String := s!"{b.channelRoot}:{t.name}"

def notConnected : Failure := .raised "Event bus not connected"

def logCalls (b : EventBus η) (cs : List ClientCall) : EventBus η :=
  { b with calls := b.calls ++ cs }

def request (b : EventBus η) (role : BusRole) (m : BrokerMethod) (arguments : List String) :
    Except Failure Unit × EventBus η :=
  let (x, broker) := b.broker.answer m
  let b := { b with broker := broker }.logCalls [.request role m arguments]
  match x with
  | none => (.ok (), b)
  | some text => (.error (.raised text), b)

/-- Connects, given what each client reports; a bus that is connected stays so.
If either client fails both are dropped. -/
def connect (b : EventBus η) (publisher subscriber : Option String) :
    Except Failure Unit × EventBus η :=
  if b.isConnected then (.ok (), b)
  else
    let b := b.logCalls [.created .publisher, .created .subscriber]
    match publisher.or subscriber with
    | some text =>
      (.error (.raised text),
        { b with hasPublisher := false, hasSubscriber := false, isListening := false }.logCalls
          [.dropped .publisher, .dropped .subscriber])
    | none =>
      (.ok (), { b with hasPublisher := true, hasSubscriber := true, isListening := true,
                        isConnected := true })

def quitPublisher (b : EventBus η) : Except Failure Unit × EventBus η :=
  if b.hasPublisher then
    match b.request .publisher .quit [] with
    | (.error f, b) => (.error f, b)
    | (.ok (), b) => (.ok (), { b with hasPublisher := false })
  else (.ok (), b)

def quitSubscriber (b : EventBus η) : Except Failure Unit × EventBus η :=
  if b.hasSubscriber then
    match b.request .subscriber .quit [] with
    | (.error f, b) => (.error f, b)
    | (.ok (), b) => (.ok (), { b with hasSubscriber := false })
  else (.ok (), b)

/-- Disconnects: the publishing client first, then the other, then the handlers. -/
def disconnect (b : EventBus η) : Except Failure Unit × EventBus η :=
  if !b.isConnected then (.ok (), b)
  else
    match b.quitPublisher with
    | (.error f, b) => (.error f, b)
    | (.ok (), b) =>
      match b.quitSubscriber with
      | (.error f, b) => (.error f, b)
      | (.ok (), b) => (.ok (), { b with handlers := [], isConnected := false })

def publish (b : EventBus η) (e : WireEvent) : Except Failure Unit × EventBus η :=
  if b.hasPublisher && b.isConnected then
    b.request .publisher .publish [b.channel e.type, e.serialize]
  else (.error notConnected, b)

/-- Publishes events in order, and each time that one was taken drops the oldest
event of the outbox.  Gives how many were published, and the outbox. -/
def relayAll : (events outbox : List WireEvent) → EventBus η →
    Except Failure Nat × List WireEvent × EventBus η
  | [], outbox, b => (.ok 0, outbox, b)
  | e :: es, outbox, b =>
    match b.publish e with
    | (.error f, b) => (.error f, outbox, b)
    | (.ok (), b) =>
      match relayAll es (outbox.drop 1) b with
      | (r, outbox, b) => (r.map (· + 1), outbox, b)

def relay (outbox : List WireEvent) :
    EventBus η → Except Failure Nat × List WireEvent × EventBus η :=
  relayAll outbox outbox

/-- Adds a handler, then asks the broker for the channel. -/
def subscribe (b : EventBus η) (t : EventType) (h : η) : Except Failure Unit × EventBus η :=
  if b.hasSubscriber && b.isConnected then
    let hs := (Table.get? t b.handlers).getD [] ++ [h]
    { b with handlers := Table.put t hs b.handlers }.request .subscriber .subscribe [b.channel t]
  else (.error notConnected, b)

def unsubscribe (b : EventBus η) (t : EventType) : Except Failure Unit × EventBus η :=
  if b.hasSubscriber && b.isConnected then
    { b with handlers := Table.erase t b.handlers }.request .subscriber .unsubscribe [b.channel t]
  else (.ok (), b)

/-- The handlers that a message reaches, in order, with the event each is given. -/
def dispatch (b : EventBus η) (message : String) : List (η × RelayedEvent) :=
  match RelayedEvent.parse message with
  | .error _ => []
  | .ok e => ((Table.get? e.type b.handlers).getD []).map (fun h => (h, e))

/-- A message on the newest subscribing client: what `dispatch` gives, if that
client has a listener. -/
def receive? (b : EventBus η) (message : String) : Option (List (η × RelayedEvent)) :=
  if b.isListening then some (b.dispatch message) else none

structure Handling (η : Type) where
  handler : η
  event : RelayedEvent
  outcome : Except Failure Unit

/-- Runs handlers one after another, each as soon as the one before it has ended.  What a
handler does to the world is up to it; one that rejects does not keep the next from its turn. -/
def handleAll {σ : Type} (act : η → RelayedEvent → σ → Except Failure Unit × σ) :
    List (η × RelayedEvent) → σ → List (Handling η) × σ
  | [], w => ([], w)
  | (h, e) :: rest, w =>
    match act h e w with
    | (outcome, w) =>
      match handleAll act rest w with
      | (handled, w) => (⟨h, e, outcome⟩ :: handled, w)

def handle {σ : Type} (b : EventBus η) (act : η → RelayedEvent → σ → Except Failure Unit × σ)
    (message : String) (w : σ) : List (Handling η) × σ :=
  handleAll act (b.dispatch message) w

/-- How long a client waits before it tries again, in milliseconds; after the third
time it gives up. -/
def retryDelay? (times : Float) : Option Float :=
  if 3 < times then none else some (if 3000 < times * 100 then 3000 else times * 100)

end EventBus
end Interchain
