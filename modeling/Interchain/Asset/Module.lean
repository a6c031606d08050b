/-
The asset module.

It moves a fungible balance between chains: a transfer burns on the source when
its request is dispatched, the destination mints when it accepts the request, and
the source mints the amount back when the request times out.

A call is one unit.  Ledger, submission and event commit together or not at all;
only metrics remember a call that failed.  An acknowledgement that cannot be sent
leaves the mint before it in place, unless what the gateway raised cannot be reported.
-/
import Interchain.Asset.Params
import Interchain.Envelope.Acknowledgement
import Interchain.Envelope.Get
import Interchain.Envelope.Post
import Interchain.Envelope.Response
import Interchain.Event.Basic
import Interchain.Gateway.Basic
import Interchain.Ledger.Session
import Interchain.Metrics.Basic

namespace Interchain

/-- Where a module runs, who may call it, and as whom it acts. -/
structure ModuleConfig where
  stateMachine : String
  hostAddress : String
  moduleAddress : String
deriving DecidableEq

structure AssetModule where
  chain : Chain
  host : Address
  address : Address
  ledger : Ledger
  outbox : List AssetEvent
deriving DecidableEq

/-- A module, the state of the gateway it submits to, and the metrics it reports. -/
structure Site (σ : Type) where
  assets : AssetModule
  gateway : σ
  metrics : Metrics

namespace AssetModule

def ofConfig (c : ModuleConfig) (l : Ledger) : Except Cause AssetModule := do
  let chain ← Params.chain c.stateMachine
  let host ← Params.address c.hostAddress "hostAddress"
  let address ← Params.address c.moduleAddress "moduleAddress"
  return ⟨chain, host, address, l, []⟩

def moduleId (m : AssetModule) : String := m.address.renderLower

def drainEvents (m : AssetModule) : List AssetEvent × AssetModule :=
  (m.outbox, { m with outbox := [] })

/-- Drops the oldest events; a negative count drops none. -/
def discardEvents (m : AssetModule) (count : Int) : AssetModule :=
  { m with outbox := m.outbox.drop count.toNat }

def event (m : AssetModule) (now : Timestamp) (body : EventBody) : AssetEvent :=
  ⟨m.chain.id, now, body⟩

end AssetModule

/-- What a call under way has besides its ledger: the events to commit, the state of
the gateway, and the metrics. -/
structure Desk (σ : Type) where
  pending : List AssetEvent
  gateway : σ
  metrics : Metrics

namespace Site

variable {σ : Type}

abbrev Work (σ α : Type) := Ledger.Work (Desk σ) α

/-- Runs work as one unit.  Only a unit that succeeds commits its events; the gateway
and the metrics are left as the work left them. -/
def execute (entry : EntryPoint) (context : Option RequestContext) (work : Work σ Unit)
    (s : Site σ) : Except Failure Unit × Site σ :=
  match work.atomically (.start s.assets.ledger, ⟨[], s.gateway, s.metrics⟩) with
  | (.error f, t, d) =>
    (.error (f.bind context),
      ⟨{ s.assets with ledger := t.ledger }, d.gateway,
        d.metrics.invoked entry (.failed f.outcome)⟩)
  | (.ok (), t, d) =>
    let m := { s.assets with ledger := t.ledger, outbox := s.assets.outbox ++ d.pending }
    (.ok (), ⟨m, d.gateway, (d.metrics.invoked entry .ok).supplied m.chain.id m.ledger.supply⟩)

/-! ## Steps of a call -/

def emit (e : AssetEvent) : Work σ Unit :=
  .modify (fun d => { d with pending := d.pending ++ [e] })

def measure (f : Metrics → Metrics) : Work σ Unit :=
  .modify (fun d => { d with metrics := f d.metrics })

def submit (g : Gateway σ) (kind : SubmissionKind) (envelope : String) :
    Work σ (Reply Thrown) := fun s =>
  match g.submit kind envelope s.2.gateway with
  | (r, gateway) => (.ok r, s.1, { s.2 with gateway := gateway })

def dispatch (g : Gateway σ) (kind : SubmissionKind) (envelope : String) : Work σ Unit := do
  match ← submit g kind envelope with
  | .accepted _ => measure (·.dispatched kind .accepted)
  | .rejected _ reason =>
    measure (·.dispatched kind .rejected)
    .check (.error (.dispatchRejected kind reason))
  | .raised thrown => .ofExcept (.error thrown.toFailure)

/-! ## Outbound -/

def transfer (g : Gateway σ) (now : Timestamp) (m : AssetModule) (caller : String)
    (p : TransferParams) : Work σ Unit := do
  let sender ← .check (Params.address caller "caller")
  let t ← .check p.check
  let holder ← .check (Ledger.holder sender)
  let _ ← .move (fun l => l.debitAccount holder t.amount)
  let payload ← .ofExcept (Payload.ofArguments (Envelope.rereadArgument t.recipient)
    (Envelope.rereadArgument sender) t.amount)
  let envelope ← .ofExcept (PostEnvelope.encode t.dest.id m.moduleId payload t.timeout t.gasLimit)
  dispatch g .post envelope
  measure (·.operated .burn)
  emit (m.event now (.balanceBurnt sender.render t.recipient.render t.amount t.dest.id))

def dispatchGet (g : Gateway σ) (now : Timestamp) (m : AssetModule) (caller : String)
    (p : GetParams) : Work σ Unit := do
  let _ ← .check (Params.address caller "caller")
  let q ← .check p.check
  let envelope ← .ofExcept (GetEnvelope.encode q.dest.id q.keys q.height q.timeout q.gasLimit)
  dispatch g .get envelope
  emit (m.event now (.getDispatched q.dest.id q.keys q.height))

/-! ## Mints -/

def mintTo (o : LedgerOperation) (a : Address) (n : Nat) : Work σ Unit := do
  let _ ← .move (fun l => l.creditAccount a n)
  measure (·.operated o)

/-- Mints an opening balance: a credit by the host with no request behind it. -/
def mint (now : Timestamp) (m : AssetModule) (caller account : String) (amount : Int) :
    Work σ Unit := do
  .check (ensureHost caller m.host)
  let a ← .check (Params.address account "to")
  let n ← .check (Ledger.amount amount)
  let holder ← .check (Ledger.holder a)
  mintTo .mint holder n
  emit (m.event now (.balanceMinted a.render a.render a.render amount .genesis))

def acknowledgement (m : AssetModule) (r : PostRequest) : Except Failure String := do
  let executor ← Envelope.rereadArgument m.address
  ResponseEnvelope.encode r (Acknowledgement.encode executor)

/-- Reports what was raised; the report may fail. -/
def report (thrown : Thrown) : Work σ Unit :=
  match thrown.report with
  | .ok _ => pure ()
  | .error fault => .ofExcept (.error (.argument fault))

/-- Acknowledges a request.  What goes wrong is counted and reported, and goes no further
than that. -/
def acknowledge (g : Gateway σ) (m : AssetModule) (r : PostRequest) : Work σ Unit :=
  match acknowledgement m r with
  | .error _ => measure (·.acknowledgementFailed)
  | .ok envelope => do
    match ← submit g .response envelope with
    | .accepted _ => pure ()
    | .rejected _ _ => measure (·.acknowledgementFailed)
    | .raised thrown =>
      measure (·.acknowledgementFailed)
      report thrown

/-- A request from another chain was delivered: mints to the recipient, then acknowledges. -/
def onAccept (g : Gateway σ) (now : Timestamp) (m : AssetModule) (caller : String)
    (r : PostRequest) : Work σ Unit := do
  .check (ensureHost caller m.host)
  let p ← .check (Payload.decode r.body)
  mintTo .mint p.recipient p.amount
  acknowledge g m r
  emit (m.event now (.balanceMinted p.sender.render p.recipient.render p.recipient.render p.amount
    .accept))

/-- A transfer was not accepted in time: mints the amount back to its sender. -/
def onPostTimeout (now : Timestamp) (m : AssetModule) (caller : String) (r : PostRequest) :
    Work σ Unit := do
  .check (ensureHost caller m.host)
  let p ← .check (Payload.decode r.body)
  mintTo .refund p.sender p.amount
  emit (m.event now (.balanceMinted p.sender.render p.recipient.render p.sender.render p.amount
    .timeout))

/-! ## Answers with no effect on the ledger -/

def isEmptyBytes (t : String) : Bool := t == "" || t == "0x" || t == "0X"

/-- The destination accepted a transfer.  The answer itself is not read. -/
def onPostResponse (now : Timestamp) (m : AssetModule) (caller : String) (p : PostResponse) :
    Work σ Unit := do
  .check (ensureHost caller m.host)
  let _ ← .check (Payload.decode p.request.body)
  emit (m.event now (.responseReceived .post p.request.source p.request.dest p.request.nonce))

def ensureValues (vs : List StorageValue) : Except Cause Unit :=
  match vs.find? (fun v => isEmptyBytes v.value) with
  | some v => .error (.missingValue v.key)
  | none => .ok ()

def onGetResponse (now : Timestamp) (m : AssetModule) (caller : String) (p : GetResponse) :
    Work σ Unit := do
  .check (ensureHost caller m.host)
  .check (ensureValues p.values)
  emit (m.event now (.responseReceived .get p.request.source p.request.dest p.request.nonce))

def ensureKeys (ks : List String) : Except Cause Unit :=
  match ks.findIdx? isEmptyBytes with
  | some i => .error (.emptyKey i)
  | none => .ok ()

def onGetTimeout (now : Timestamp) (m : AssetModule) (caller : String) (r : GetRequest) :
    Work σ Unit := do
  .check (ensureHost caller m.host)
  .check (ensureKeys r.keys)
  emit (m.event now (.timeoutReceived r.source r.dest r.nonce))

end Site

inductive ModuleCall
  | transfer (caller : String) (params : TransferParams)
  | dispatchGet (caller : String) (params : GetParams)
  | mint (caller account : String) (amount : Int)
  | onAccept (caller : String) (request : PostRequest)
  | onPostResponse (caller : String) (response : PostResponse)
  | onGetResponse (caller : String) (response : GetResponse)
  | onPostTimeout (caller : String) (request : PostRequest)
  | onGetTimeout (caller : String) (request : GetRequest)
deriving DecidableEq

namespace ModuleCall

def entry : ModuleCall → EntryPoint
  | .transfer _ _ => .transfer
  | .dispatchGet _ _ => .dispatchGet
  | .mint _ _ _ => .mint
  | .onAccept _ _ => .onAccept
  | .onPostResponse _ _ => .onPostResponse
  | .onGetResponse _ _ => .onGetResponse
  | .onPostTimeout _ _ => .onPostTimeout
  | .onGetTimeout _ _ => .onGetTimeout

/-- The request that a failure of the call is bound to. -/
def context : ModuleCall → Option RequestContext
  | .transfer _ _ | .dispatchGet _ _ | .mint _ _ _ => none
  | .onAccept _ r | .onPostTimeout _ r => r.context
  | .onPostResponse _ p => p.request.context
  | .onGetResponse _ p => p.request.context
  | .onGetTimeout _ r => r.context

end ModuleCall

namespace Site

variable {σ : Type}

def workOf (g : Gateway σ) (now : Timestamp) (m : AssetModule) : ModuleCall → Work σ Unit
  | .transfer caller p => transfer g now m caller p
  | .dispatchGet caller p => dispatchGet g now m caller p
  | .mint caller account n => mint now m caller account n
  | .onAccept caller r => onAccept g now m caller r
  | .onPostResponse caller p => onPostResponse now m caller p
  | .onGetResponse caller p => onGetResponse now m caller p
  | .onPostTimeout caller r => onPostTimeout now m caller r
  | .onGetTimeout caller r => onGetTimeout now m caller r

def call (g : Gateway σ) (now : Timestamp) (c : ModuleCall) (s : Site σ) :
    Except Failure Unit × Site σ :=
  s.execute c.entry c.context (workOf g now s.assets c)

end Site
end Interchain
