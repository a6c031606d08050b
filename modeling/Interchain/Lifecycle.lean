/-
The life of a request.

A request is dispatched or refused.  One that was dispatched is answered or times
out.  Nothing follows the other three.
-/

namespace Interchain

inductive RequestStatus
  | idle
  | dispatched
  | dispatchRejected
  | responded
  | timedOut
deriving DecidableEq

namespace RequestStatus

def name : RequestStatus → String
  | .idle => "IDLE"
  | .dispatched => "DISPATCHED"
  | .dispatchRejected => "DISPATCH_REJECTED"
  | .responded => "RESPONDED"
  | .timedOut => "TIMED_OUT"

def all : List RequestStatus := [.idle, .dispatched, .dispatchRejected, .responded, .timedOut]

def ofName? (t : String) : Option RequestStatus := all.find? (fun s => s.name == t)

/-- What may follow a status. -/
def next : RequestStatus → List RequestStatus
  | .idle => [.dispatched, .dispatchRejected]
  | .dispatched => [.responded, .timedOut]
  | .dispatchRejected | .responded | .timedOut => []

def mayBecome (s t : RequestStatus) : Bool := s.next.contains t

def isTerminal (s : RequestStatus) : Bool := s.next.isEmpty

end RequestStatus
end Interchain
