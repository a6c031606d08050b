/-
Events of an asset module.

A committed call leaves one event.  On the wire its fields are a record of named
data, in which integers and texts stay apart.
-/
import Interchain.Json.Value
import Interchain.Time

namespace Interchain

inductive EventType
  | balanceBurnt
  | getDispatched
  | balanceMinted
  | responseReceived
  | timeoutReceived
deriving DecidableEq

namespace EventType

def name : EventType → String
  | .balanceBurnt => "BalanceBurnt"
  | .getDispatched => "GetDispatched"
  | .balanceMinted => "BalanceMinted"
  | .responseReceived => "ResponseReceived"
  | .timeoutReceived => "TimeoutReceived"

def all : List EventType :=
  [.balanceBurnt, .getDispatched, .balanceMinted, .responseReceived, .timeoutReceived]

def ofName? (t : String) : Option EventType := all.find? (fun e => e.name == t)

end EventType

inductive MintReason
  | accept
  | timeout
  | genesis
deriving DecidableEq

def MintReason.name : MintReason → String
  | .accept => "accept"
  | .timeout => "timeout"
  | .genesis => "genesis"

inductive RequestKind
  | post
  | get
deriving DecidableEq

def RequestKind.name : RequestKind → String
  | .post => "post"
  | .get => "get"

inductive EventBody
  | balanceBurnt (sender recipient : String) (amount : Int) (dest : String)
  | getDispatched (dest : String) (keys : List String) (height : Int)
  | balanceMinted (sender recipient beneficiary : String) (amount : Int) (reason : MintReason)
  | responseReceived (kind : RequestKind) (source dest : String) (nonce : Int)
  | timeoutReceived (source dest : String) (nonce : Int)
deriving DecidableEq

structure AssetEvent where
  stateMachine : String
  timestamp : Timestamp
  body : EventBody
deriving DecidableEq

/-- Named data: JSON with integers of any size. -/
inductive Datum
  | null
  | bool (value : Bool)
  | number (value : Float)
  | integer (value : Int)
  | text (value : String)
  | list (items : List Datum)
  | record (fields : List (String × Datum))

mutual
def Datum.toJson : Datum → Json
  | .null => .null
  | .bool b => .bool b
  | .number x => .number x
  | .integer n => .string (toString n)
  | .text t => .string t
  | .list ds => .array (Datum.toJsonItems ds)
  | .record fs => .object (Datum.toJsonFields fs)

def Datum.toJsonItems : List Datum → List Json
  | [] => []
  | d :: ds => d.toJson :: Datum.toJsonItems ds

def Datum.toJsonFields : List (String × Datum) → List (String × Json)
  | [] => []
  | (k, d) :: fs => (k, d.toJson) :: Datum.toJsonFields fs
end

namespace EventBody

def type : EventBody → EventType
  | .balanceBurnt _ _ _ _ => .balanceBurnt
  | .getDispatched _ _ _ => .getDispatched
  | .balanceMinted _ _ _ _ _ => .balanceMinted
  | .responseReceived _ _ _ _ => .responseReceived
  | .timeoutReceived _ _ _ => .timeoutReceived

/-- The fields of an event in the order in which they are written. -/
def fields : EventBody → List (String × Datum)
  | .balanceBurnt sender recipient amount dest =>
    [("from", .text sender), ("to", .text recipient), ("amount", .integer amount),
     ("dest", .text dest)]
  | .getDispatched dest keys height =>
    [("dest", .text dest), ("keys", .list (keys.map .text)), ("height", .integer height)]
  | .balanceMinted sender recipient beneficiary amount reason =>
    [("from", .text sender), ("to", .text recipient), ("beneficiary", .text beneficiary),
     ("amount", .integer amount), ("reason", .text reason.name)]
  | .responseReceived kind source dest nonce =>
    [("kind", .text kind.name), ("source", .text source), ("dest", .text dest),
     ("nonce", .integer nonce)]
  | .timeoutReceived source dest nonce =>
    [("source", .text source), ("dest", .text dest), ("nonce", .integer nonce)]

end EventBody
end Interchain
