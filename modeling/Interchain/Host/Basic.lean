/-
The host: asset modules on several chains, joined in one place.

It is the gateway of every module, delivers their requests, hands back the
acknowledgements and times requests out by its own clock.  Only the host calls
the inbound entry points, so each request ends at most once.
-/
import Interchain.Asset.Module
import Interchain.Host.Exchange

namespace Interchain

structure Host where
  address : String
  modules : List AssetModule
  exchange : Exchange
  clock : Int
  metrics : Metrics

namespace Host

def new (address : String) (clock : Int) (d : Draws) : Host :=
  ⟨address, [], .empty d, clock, .zero⟩

def module? (h : Host) (id : String) : Option AssetModule :=
  h.modules.find? (fun m => m.chain.id = id)

def setModule (h : Host) (m : AssetModule) : Host :=
  { h with modules := h.modules.map (fun m' => if m'.chain.id = m.chain.id then m else m') }

/-- Adds a chain with a module of its own and gives its identifier. -/
def register (h : Host) (stateMachine moduleAddress : String) (l : Ledger) :
    Except Cause (String × Host) := do
  let chain ← Params.chain stateMachine
  if (h.module? chain.id).isSome then
    throw (.chainTaken chain.id)
  let m ← AssetModule.ofConfig ⟨chain.id, h.address, moduleAddress⟩ l
  let lane : Lane := ⟨chain, m.moduleId, .new false, 0⟩
  return (chain.id,
    { h with modules := h.modules ++ [m],
             exchange := { h.exchange with lanes := h.exchange.lanes ++ [lane] } })

def moduleOf (h : Host) (stateMachine : String) : Except Cause AssetModule := do
  let chain ← Params.chain stateMachine
  match h.module? chain.id with
  | some m => return m
  | none => throw (.chainMissing stateMachine)

def laneOf (h : Host) (stateMachine : String) : Except Cause Lane := do
  let chain ← Params.chain stateMachine
  match h.exchange.lane? chain.id with
  | some l => return l
  | none => throw (.chainMissing stateMachine)

def callModule (h : Host) (m : AssetModule) (now : Timestamp) (c : ModuleCall) :
    Except Failure Unit × Host :=
  match Site.call (Exchange.gatewayOf m.chain.id) now c ⟨m, h.exchange, h.metrics⟩ with
  | (r, s) => (r, { h with exchange := s.gateway, metrics := s.metrics }.setModule s.assets)

def call (h : Host) (stateMachine : String) (now : Timestamp) (c : ModuleCall) :
    Except Failure Unit × Host :=
  match h.moduleOf stateMachine with
  | .error c => (.error (.ofCause c), h)
  | .ok m => h.callModule m now c

def submit (h : Host) (stateMachine : String) (kind : SubmissionKind) (envelope : String) :
    Except Cause (Reply × Host) := do
  let l ← h.laneOf stateMachine
  let (r, x) := h.exchange.submit l.chain.id kind envelope
  return (r, { h with exchange := x })

def statusOf (h : Host) (key : String) : Except Cause RequestStatus :=
  match h.exchange.post? key, h.exchange.get? key with
  | some p, _ => .ok p.status
  | none, some g => .ok g.status
  | none, none => .error (.requestNotFound key)

def trackedPost (h : Host) (key : String) : Except Cause TrackedPost :=
  match h.exchange.post? key with
  | some p => .ok p
  | none => .error (.requestNotFound key)

def trackedGet (h : Host) (key : String) : Except Cause TrackedGet :=
  match h.exchange.get? key with
  | some g => .ok g
  | none => .error (.requestNotFound key)

def inFlight (h : Host) : List String :=
  (h.exchange.posts.filter (fun p => !p.status.isTerminal)).map TrackedPost.key ++
    (h.exchange.gets.filter (fun g => !g.status.isTerminal)).map TrackedGet.key

def inFlightAmount : List TrackedPost → Except Cause Nat
  | [] => .ok 0
  | p :: ps =>
    if p.status = .dispatched then do
      let payload ← Payload.decode p.request.body
      let rest ← inFlightAmount ps
      return payload.amount + rest
    else inFlightAmount ps

def ledgerSupply : List AssetModule → Nat
  | [] => 0
  | m :: ms => m.ledger.supply + ledgerSupply ms

def circulatingSupply (h : Host) : Except Cause Nat :=
  (inFlightAmount h.exchange.posts).map (fun n => ledgerSupply h.modules + n)

/-- A request may take a status that follows its own. -/
def ensureTransition (current next : RequestStatus) (key : String) : Except Cause Unit :=
  if current.mayBecome next then .ok () else .error (.transition current next key)

/-- A request may be answered while it is in flight and its time has not passed. -/
def ensureAnswerable (h : Host) (status : RequestStatus) (timeout : Int) (key : String) :
    Except Cause Unit := do
  ensureTransition status .responded key
  if hasExpired timeout h.clock then
    throw (.expired key timeout)

def setDelivering (h : Host) (key : Option String) : Host :=
  { h with exchange := { h.exchange with delivering := key } }

/-- Hands the acknowledgement of a post, if the exchange took one, to its source. -/
def handBack (h : Host) (now : Timestamp) (key : String) : Except Failure Unit × Host :=
  match h.exchange.post? key with
  | some ⟨_, request, _, some response⟩ =>
    h.call request.source now (.onPostResponse h.address ⟨request, response⟩)
  | some ⟨_, _, _, none⟩ | none => (.ok (), h)

/-- Delivers a post to its destination.  Once that accepted it the post is answered,
whatever becomes of its acknowledgement. -/
def deliver (h : Host) (now : Timestamp) (key : String) : Except Failure Unit × Host :=
  match h.trackedPost key with
  | .error c => (.error (.ofCause c), h)
  | .ok p =>
    match h.ensureAnswerable p.status p.request.timeout key with
    | .error c => (.error (.ofCause c), h)
    | .ok () =>
      let delivering := h.setDelivering (some key)
      match delivering.call p.request.dest now (.onAccept h.address p.request) with
      | (.error f, h) => (.error f, h.setDelivering none)
      | (.ok (), h) =>
        let h := h.setDelivering none
        { h with exchange := h.exchange.setPostStatus key .responded }.handBack now key

def respondToGet (h : Host) (now : Timestamp) (key : String) (values : List StorageValue) :
    Except Failure Unit × Host :=
  match h.trackedGet key with
  | .error c => (.error (.ofCause c), h)
  | .ok g =>
    match h.ensureAnswerable g.status g.request.timeout key with
    | .error c => (.error (.ofCause c), h)
    | .ok () =>
      match h.call g.request.source now (.onGetResponse h.address ⟨g.request, values⟩) with
      | (.error f, h) => (.error f, h)
      | (.ok (), h) => (.ok (), { h with exchange := h.exchange.setGetStatus key .responded })

/-! ## Expiry

Requests are timed out one by one.  A callback that fails ends the round; what was
timed out before it stays so. -/

def expirePosts (now : Timestamp) : List TrackedPost → Host → Except Failure (List String) × Host
  | [], h => (.ok [], h)
  | p :: ps, h =>
    if p.status = .dispatched ∧ hasExpired p.request.timeout h.clock then
      match h.call p.request.source now (.onPostTimeout h.address p.request) with
      | (.error f, h) => (.error f, h)
      | (.ok (), h) =>
        let h := { h with exchange := h.exchange.setPostStatus p.key .timedOut }
        match expirePosts now ps h with
        | (r, h) => (r.map (p.key :: ·), h)
    else expirePosts now ps h

def expireGets (now : Timestamp) : List TrackedGet → Host → Except Failure (List String) × Host
  | [], h => (.ok [], h)
  | g :: gs, h =>
    if g.status = .dispatched ∧ hasExpired g.request.timeout h.clock then
      match h.call g.request.source now (.onGetTimeout h.address g.request) with
      | (.error f, h) => (.error f, h)
      | (.ok (), h) =>
        let h := { h with exchange := h.exchange.setGetStatus g.key .timedOut }
        match expireGets now gs h with
        | (r, h) => (r.map (g.key :: ·), h)
    else expireGets now gs h

/-- Moves the clock on and times out every request that is due, posts first.  Gives
the keys of those that timed out. -/
def expire (h : Host) (now : Timestamp) (clock : Int) : Except Failure (List String) × Host :=
  if clock < h.clock then (.error (.ofCause .clockBackwards), h)
  else
    let h := { h with clock := clock }
    match expirePosts now h.exchange.posts h with
    | (.error f, h) => (.error f, h)
    | (.ok posts, h) =>
      match expireGets now h.exchange.gets h with
      | (.error f, h) => (.error f, h)
      | (.ok gets, h) => (.ok (posts ++ gets), h)

end Host
end Interchain
