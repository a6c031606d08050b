/-
The exchange: what a host keeps of requests, and the gateway it is to each chain.

A submission passes the fault injector of its chain before it is taken.  Posts
and gets of a chain share one sequence of nonces.  A refused post or get is
counted; a refused response is not.
-/
import Interchain.Envelope.Get
import Interchain.Envelope.Post
import Interchain.Envelope.Response
import Interchain.Gateway.Simulated
import Interchain.Lifecycle

namespace Interchain

structure TrackedPost where
  key : String
  request : PostRequest
  status : RequestStatus
  acknowledgement : Option String
deriving DecidableEq

structure TrackedGet where
  key : String
  request : GetRequest
  status : RequestStatus
deriving DecidableEq

/-- A chain as the exchange knows it. -/
structure Lane where
  chain : Chain
  moduleId : String
  faults : SimulatedGateway
  nextNonce : Nat

structure Exchange where
  lanes : List Lane
  posts : List TrackedPost
  gets : List TrackedGet
  rejections : Nat
  delivering : Option String
  draws : Draws

inductive Refusal
  | undecodable (cause : Cause)
  | unknownDestination (dest : String)
  | fault (reason : String)
  | notDelivering (key : String)

def Refusal.message : Refusal → String
  | .undecodable c => c.message
  | .unknownDestination dest => s!"Unknown destination {dest}"
  | .fault reason => reason
  | .notDelivering key => s!"No delivery in progress for {key}"

namespace Exchange

def empty (d : Draws) : Exchange := ⟨[], [], [], 0, none, d⟩

def lane? (x : Exchange) (id : String) : Option Lane := x.lanes.find? (fun l => l.chain.id = id)

def updateLane (x : Exchange) (id : String) (f : Lane → Lane) : Exchange :=
  { x with lanes := x.lanes.map (fun l => if l.chain.id = id then f l else l) }

def post? (x : Exchange) (key : String) : Option TrackedPost := x.posts.find? (fun p => p.key = key)

def get? (x : Exchange) (key : String) : Option TrackedGet := x.gets.find? (fun g => g.key = key)

def updatePost (x : Exchange) (key : String) (f : TrackedPost → TrackedPost) : Exchange :=
  { x with posts := x.posts.map (fun p => if p.key = key then f p else p) }

def updateGet (x : Exchange) (key : String) (f : TrackedGet → TrackedGet) : Exchange :=
  { x with gets := x.gets.map (fun g => if g.key = key then f g else g) }

def setPostStatus (x : Exchange) (key : String) (s : RequestStatus) : Exchange :=
  x.updatePost key (fun p => { p with status := s })

def setGetStatus (x : Exchange) (key : String) (s : RequestStatus) : Exchange :=
  x.updateGet key (fun g => { g with status := s })

/-- Puts an entry under its key: in the place of one that has the key, or else last. -/
def place {α : Type} (key : α → String) (a : α) : List α → List α
  | [] => [a]
  | b :: bs => if key b = key a then a :: bs else b :: place key a bs

def passFaults (x : Exchange) (l : Lane) (kind : SubmissionKind) (envelope : String) :
    Reply × Exchange :=
  match l.faults.submit kind envelope x.draws with
  | (r, faults, draws) =>
    (r, { x with draws := draws }.updateLane l.chain.id (fun l => { l with faults := faults }))

def reject (x : Exchange) (kind : SubmissionKind) (r : Refusal) : Reply × Exchange :=
  (.rejected kind r.message, { x with rejections := x.rejections + 1 })

def takeNonce (x : Exchange) (l : Lane) : Exchange :=
  x.updateLane l.chain.id (fun l => { l with nextNonce := l.nextNonce + 1 })

def trackPost (x : Exchange) (l : Lane) (e : PostEnvelope) : Reply × Exchange :=
  let source := l.chain.id
  let key := requestKey source l.nextNonce
  let request : PostRequest :=
    ⟨source, e.dest, l.nextNonce, l.moduleId, e.toModule, e.timeout, e.body, e.gasLimit⟩
  let x := x.takeNonce l
  (.accepted l.nextNonce,
    { x with posts := place TrackedPost.key ⟨key, request, .dispatched, none⟩ x.posts })

def trackGet (x : Exchange) (l : Lane) (e : GetEnvelope) : Reply × Exchange :=
  let source := l.chain.id
  let key := requestKey source l.nextNonce
  let request : GetRequest :=
    ⟨source, e.dest, l.nextNonce, l.moduleId, e.timeout, e.keys, e.height, e.gasLimit⟩
  let x := x.takeNonce l
  (.accepted l.nextNonce,
    { x with gets := place TrackedGet.key ⟨key, request, .dispatched⟩ x.gets })

def submitPost (x : Exchange) (l : Lane) (envelope : String) : Reply × Exchange :=
  match PostEnvelope.decode envelope with
  | .error c => x.reject .post (.undecodable c)
  | .ok e =>
    if (x.lane? e.dest).isNone then x.reject .post (.unknownDestination e.dest)
    else
      match x.passFaults l .post envelope with
      | (.accepted _, x) => x.trackPost l e
      | (.rejected _ reason, x) => x.reject .post (.fault reason)
      | (.raised text, x) => (.raised text, x)

def submitGet (x : Exchange) (l : Lane) (envelope : String) : Reply × Exchange :=
  match GetEnvelope.decode envelope with
  | .error c => x.reject .get (.undecodable c)
  | .ok e =>
    match x.passFaults l .get envelope with
    | (.accepted _, x) => x.trackGet l e
    | (.rejected _ reason, x) => x.reject .get (.fault reason)
    | (.raised text, x) => (.raised text, x)

/-- A response is taken only as the acknowledgement of the post being delivered. -/
def submitResponse (x : Exchange) (l : Lane) (envelope : String) : Reply × Exchange :=
  match ResponseEnvelope.decode envelope with
  | .error c => (.rejected .response (Refusal.undecodable c).message, x)
  | .ok p =>
    let key := requestKey p.request.source p.request.nonce
    if x.delivering = some key then
      match x.passFaults l .response envelope with
      | (.accepted _, x) =>
        (.accepted p.request.nonce,
          x.updatePost key (fun t => { t with acknowledgement := some p.response }))
      | (r, x) => (r, x)
    else (.rejected .response (Refusal.notDelivering key).message, x)

def submit (source : String) (kind : SubmissionKind) (envelope : String) (x : Exchange) :
    Reply × Exchange :=
  match x.lane? source with
  | none => (.raised (Cause.chainMissing source).message, x)
  | some l =>
    match kind with
    | .post => x.submitPost l envelope
    | .get => x.submitGet l envelope
    | .response => x.submitResponse l envelope

def gatewayOf (source : String) : Gateway Exchange := .ofReplies (submit source)

end Exchange
end Interchain
