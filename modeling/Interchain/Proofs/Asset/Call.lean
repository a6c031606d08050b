/-
What a call of a module can do.

`Commit` says it once, with one constructor for each entry point: what has to hold for
the call to commit, the ledger it leaves, the one event it commits and the state in
which it leaves the gateway.  A call that does not commit leaves the module as it was,
and its gateway declined whatever was submitted (`Declines`).  The rest of the theory
of the module is derived from `call_ok` and `call_error`.

The metrics that a call leaves are those that its entry point counts (`counted`), or if it
fails what it had counted by then (`Declined`), and its outcome (`call_metrics`).
-/
import Interchain.Asset.Module
import Interchain.Proofs.Envelope.Arguments
import Interchain.Proofs.Ledger.Reachable
import Interchain.Proofs.Ledger.Work

namespace Interchain

/-- At most one submission, and that one not accepted. -/
def Gateway.Declines {σ : Type} (g : Gateway σ) (st st' : σ) : Prop :=
  st' = st ∨
    ∃ kind envelope reply, g.submit kind envelope st = (reply, st') ∧ reply.isAccepted = false

theorem Gateway.declines_ofReplies {σ : Type} {f : SubmissionKind → String → σ → Reply × σ}
    {st st' : σ} (h : (ofReplies f).Declines st st') : st' = st ∨
      ∃ kind envelope r, f kind envelope st = (r, st') ∧ r.isAccepted = false := by
  rcases h with rfl | ⟨kind, envelope, reply, hsubmit, hreply⟩
  · exact Or.inl rfl
  · obtain ⟨r, hr, rfl⟩ := of_ofReplies hsubmit
    rw [Reply.isAccepted_thrown] at hreply
    exact Or.inr ⟨kind, envelope, r, hr, hreply⟩

def Metrics.Missed (mx mx' : Metrics) : Prop :=
  mx' = mx ∨ ∃ kind, mx' = mx.dispatched kind .rejected

/-- Why what was raised cannot be reported, if it cannot. -/
def Thrown.fault? (t : Thrown) : Option ArgumentFault :=
  match t.report with
  | .ok _ => none
  | .error fault => some fault

def Reply.fault? : Reply Thrown → Option ArgumentFault
  | .accepted _ | .rejected _ _ => none
  | .raised thrown => thrown.fault?

theorem Reply.isAccepted_of_fault? {reply : Reply Thrown} {fault : ArgumentFault}
    (h : reply.fault? = some fault) : reply.isAccepted = false := by
  cases reply with
  | accepted => cases h
  | rejected | raised => rfl

theorem Reply.fault?_thrown (reply : Reply) : reply.thrown.fault? = none := by
  cases reply <;> rfl

def ModuleCall.dispatches : ModuleCall → Option SubmissionKind
  | .transfer _ _ => some .post
  | .dispatchGet _ _ => some .get
  | .mint _ _ _ | .onAccept _ _ | .onPostResponse _ _ | .onGetResponse _ _
  | .onPostTimeout _ _ | .onGetTimeout _ _ => none

theorem AssetModule.ofConfig_eq_ok {c : ModuleConfig} {l : Ledger} {m : AssetModule} :
    ofConfig c l = .ok m ↔
      Chain.parse c.stateMachine = .ok m.chain ∧ Address.parse? c.hostAddress = some m.host ∧
        Address.parse? c.moduleAddress = some m.address ∧ m.ledger = l ∧ m.outbox = [] := by
  simp only [ofConfig, bind_eq_ok, pure_eq_ok, Params.chain_eq_ok, Params.address_eq_ok]
  constructor
  · rintro ⟨chain, hchain, host, hhost, address, haddress, rfl⟩
    exact ⟨hchain, hhost, haddress, rfl, rfl⟩
  · rintro ⟨hchain, hhost, haddress, rfl, hnew⟩
    refine ⟨m.chain, hchain, m.host, hhost, m.address, haddress, ?_⟩
    rw [← hnew]

namespace Site

open Ledger

variable {σ : Type} {g : Gateway σ} {now : Timestamp} {m : AssetModule} {st : σ}

def acknowledged (g : Gateway σ) (m : AssetModule) (r : PostRequest) (st : σ) : σ :=
  match acknowledgement m r with
  | .error _ => st
  | .ok envelope => (g.submit .response envelope st).2

def answers (g : Gateway σ) (m : AssetModule) (r : PostRequest) (st : σ) : Bool :=
  match acknowledgement m r with
  | .error _ => false
  | .ok envelope => (g.submit .response envelope st).1.isAccepted

/-- Why what the gateway raised at the acknowledgement cannot be reported, if it cannot. -/
def untold (g : Gateway σ) (m : AssetModule) (r : PostRequest) (st : σ) : Option ArgumentFault :=
  match acknowledgement m r with
  | .error _ => none
  | .ok envelope => (g.submit .response envelope st).1.fault?

/-- What the work of a call counts if it commits. -/
def counted (g : Gateway σ) (m : AssetModule) (st : σ) (mx : Metrics) : ModuleCall → Metrics
  | .transfer _ _ => (mx.dispatched .post .accepted).operated .burn
  | .dispatchGet _ _ => mx.dispatched .get .accepted
  | .mint _ _ _ => mx.operated .mint
  | .onAccept _ r =>
    if answers g m r st then mx.operated .mint else (mx.operated .mint).acknowledgementFailed
  | .onPostTimeout _ _ => mx.operated .refund
  | .onPostResponse _ _ | .onGetResponse _ _ | .onGetTimeout _ _ => mx

/-- The call commits: it leaves the ledger `l` and the gateway `st'`, with the event `body`. -/
inductive Commit (g : Gateway σ) (m : AssetModule) (st : σ) :
    (c : ModuleCall) → (l : Ledger) → (body : EventBody) → (st' : σ) → Prop
  | transfer {caller : String} {p : TransferParams} {sender : Address} {t : Transfer}
      {move : Movement} {envelope : String} {nonce : Int} {st' : σ}
      (sender_eq : Address.parse? caller = some sender) (check_eq : p.check = .ok t)
      (narrow_sender : sender.IsNarrow) (narrow_recipient : t.recipient.IsNarrow)
      (move_eq : m.ledger.debitAccount sender t.amount = .ok move)
      (envelope_eq : PostEnvelope.encode t.dest.id m.moduleId ⟨t.recipient, sender, t.amount⟩
        t.timeout t.gasLimit = .ok envelope)
      (submit_eq : g.submit .post envelope st = (.accepted nonce, st')) :
      Commit g m st (.transfer caller p) (m.ledger.apply move)
        (.balanceBurnt sender.render t.recipient.render t.amount t.dest.id) st'
  | dispatchGet {caller : String} {p : GetParams} {a : Address} {q : Query} {envelope : String}
      {nonce : Int} {st' : σ}
      (caller_eq : Address.parse? caller = some a) (check_eq : p.check = .ok q)
      (envelope_eq : GetEnvelope.encode q.dest.id q.keys q.height q.timeout q.gasLimit
        = .ok envelope)
      (submit_eq : g.submit .get envelope st = (.accepted nonce, st')) :
      Commit g m st (.dispatchGet caller p) m.ledger (.getDispatched q.dest.id q.keys q.height) st'
  | mint {caller account : String} {amount : Int} {a : Address} {n : Nat} {move : Movement}
      (host_eq : ensureHost caller m.host = .ok ()) (account_eq : Address.parse? account = some a)
      (amount_eq : Ledger.amount amount = .ok n) (narrow : a.IsNarrow)
      (move_eq : m.ledger.creditAccount a n = .ok move) :
      Commit g m st (.mint caller account amount) (m.ledger.apply move)
        (.balanceMinted a.render a.render a.render amount .genesis) st
  | onAccept {caller : String} {r : PostRequest} {p : Payload} {move : Movement}
      (host_eq : ensureHost caller m.host = .ok ()) (decode_eq : Payload.decode r.body = .ok p)
      (move_eq : m.ledger.creditAccount p.recipient p.amount = .ok move)
      (untold_eq : untold g m r st = none) :
      Commit g m st (.onAccept caller r) (m.ledger.apply move)
        (.balanceMinted p.sender.render p.recipient.render p.recipient.render p.amount .accept)
        (acknowledged g m r st)
  | onPostResponse {caller : String} {r : PostResponse} {p : Payload}
      (host_eq : ensureHost caller m.host = .ok ())
      (decode_eq : Payload.decode r.request.body = .ok p) :
      Commit g m st (.onPostResponse caller r) m.ledger
        (.responseReceived .post r.request.source r.request.dest r.request.nonce) st
  | onGetResponse {caller : String} {r : GetResponse}
      (host_eq : ensureHost caller m.host = .ok ()) (values_eq : ensureValues r.values = .ok ()) :
      Commit g m st (.onGetResponse caller r) m.ledger
        (.responseReceived .get r.request.source r.request.dest r.request.nonce) st
  | onPostTimeout {caller : String} {r : PostRequest} {p : Payload} {move : Movement}
      (host_eq : ensureHost caller m.host = .ok ()) (decode_eq : Payload.decode r.body = .ok p)
      (move_eq : m.ledger.creditAccount p.sender p.amount = .ok move) :
      Commit g m st (.onPostTimeout caller r) (m.ledger.apply move)
        (.balanceMinted p.sender.render p.recipient.render p.sender.render p.amount .timeout) st
  | onGetTimeout {caller : String} {r : GetRequest}
      (host_eq : ensureHost caller m.host = .ok ()) (keys_eq : ensureKeys r.keys = .ok ()) :
      Commit g m st (.onGetTimeout caller r) m.ledger
        (.timeoutReceived r.source r.dest r.nonce) st

/-- What a call that fails leaves at the gateway and in the metrics.  It has not got to the
gateway, or its dispatch was not accepted, or its acknowledgement went wrong in a way that
could not be reported, after the mint was counted. -/
inductive Declined (g : Gateway σ) (m : AssetModule) (st : σ) (mx : Metrics) :
    ModuleCall → σ → Metrics → Prop
  | early {c : ModuleCall} : Declined g m st mx c st mx
  | dispatch {c : ModuleCall} {kind : SubmissionKind} {envelope : String} {reply : Reply Thrown}
      {st' : σ} {mx' : Metrics} (dispatches_eq : c.dispatches = some kind)
      (submit_eq : g.submit kind envelope st = (reply, st'))
      (isAccepted_eq : reply.isAccepted = false) (missed : mx.Missed mx') :
      Declined g m st mx c st' mx'
  | acknowledgement {caller : String} {r : PostRequest} {fault : ArgumentFault}
      (untold_eq : untold g m r st = some fault) :
      Declined g m st mx (.onAccept caller r) (acknowledged g m r st)
        (mx.operated .mint).acknowledgementFailed

theorem exists_acknowledgement_of_untold {r : PostRequest} {fault : ArgumentFault}
    (h : untold g m r st = some fault) : ∃ envelope, acknowledgement m r = .ok envelope ∧
      (g.submit .response envelope st).1.fault? = some fault := by
  rw [untold] at h
  cases hencode : acknowledgement m r with
  | error f =>
    rw [hencode] at h
    cases h
  | ok envelope =>
    rw [hencode] at h
    exact ⟨envelope, rfl, h⟩

theorem untold_eq_none (h : ∀ envelope, (g.submit .response envelope st).1.fault? = none)
    (r : PostRequest) : untold g m r st = none := by
  rw [untold]
  cases acknowledgement m r with
  | error f => rfl
  | ok envelope => exact h envelope

theorem untold_ofReplies (f : SubmissionKind → String → σ → Reply × σ) (m : AssetModule)
    (r : PostRequest) (st : σ) : untold (.ofReplies f) m r st = none :=
  untold_eq_none (fun envelope => (f .response envelope st).1.fault?_thrown) r

theorem answers_of_untold {r : PostRequest} {fault : ArgumentFault}
    (h : untold g m r st = some fault) : answers g m r st = false := by
  obtain ⟨envelope, hencode, hfault⟩ := exists_acknowledgement_of_untold h
  rw [answers, hencode]
  exact Reply.isAccepted_of_fault? hfault

theorem Declined.declines {mx mx' : Metrics} {c : ModuleCall} {st' : σ}
    (h : Declined g m st mx c st' mx') : g.Declines st st' := by
  cases h with
  | early => exact Or.inl rfl
  | dispatch _ hsubmit hreply _ => exact Or.inr ⟨_, _, _, hsubmit, hreply⟩
  | acknowledgement huntold =>
    obtain ⟨envelope, hencode, hfault⟩ := exists_acknowledgement_of_untold huntold
    rw [acknowledged, hencode]
    exact Or.inr ⟨.response, envelope, _, rfl, Reply.isAccepted_of_fault? hfault⟩

/-! ## The steps of a call -/

variable {s : Session × Desk σ} {Q : Unit → Session × Desk σ → Prop} {E : Session × Desk σ → Prop}

/-- A dispatch succeeds only if the gateway accepts, and is the last step that may fail. -/
theorem sat_dispatch {kind : SubmissionKind} {envelope : String}
    (hE : ∀ reply st' metrics, g.submit kind envelope s.2.gateway = (reply, st') →
      reply.isAccepted = false → s.2.metrics.Missed metrics → E (s.1, ⟨s.2.pending, st', metrics⟩))
    (hQ : ∀ nonce st', g.submit kind envelope s.2.gateway = (.accepted nonce, st') →
      Q () (s.1, ⟨s.2.pending, st', s.2.metrics.dispatched kind .accepted⟩)) :
    (dispatch g kind envelope).Sat s Q E := by
  rw [dispatch, Work.sat_bind, Work.Sat, submit]
  rcases h : g.submit kind envelope s.2.gateway with ⟨reply, st'⟩
  cases reply with
  | accepted nonce => exact hQ nonce st' h
  | rejected k reason => exact hE _ st' _ h rfl (Or.inr ⟨kind, rfl⟩)
  | raised thrown => exact hE _ st' _ h rfl (Or.inl rfl)

theorem sat_mintTo {o : LedgerOperation} {a : Address} {n : Nat} (hE : E s)
    (hQ : ∀ move, s.1.ledger.creditAccount a n = .ok move →
      Q () (s.1.move move, ⟨s.2.pending, s.2.gateway, s.2.metrics.operated o⟩)) :
    (mintTo o a n).Sat s Q E := by
  rw [mintTo, Work.sat_bind]
  exact Work.sat_move hE hQ

theorem report_apply (thrown : Thrown) (s : Session × Desk σ) :
    (report thrown : Work σ Unit) s =
      (thrown.fault?.elim (.ok ()) (fun fault => .error (.argument fault)), s) := by
  rw [report, Thrown.fault?]
  cases thrown.report with
  | ok | error => rfl

/-- An acknowledgement goes wrong without a word, unless what was raised cannot be reported. -/
theorem acknowledge_apply (g : Gateway σ) (m : AssetModule) (r : PostRequest)
    (s : Session × Desk σ) : acknowledge g m r s =
      ((untold g m r s.2.gateway).elim (.ok ()) (fun fault => .error (.argument fault)), s.1,
        ⟨s.2.pending, acknowledged g m r s.2.gateway,
          if answers g m r s.2.gateway then s.2.metrics
          else s.2.metrics.acknowledgementFailed⟩) := by
  rw [acknowledge, acknowledged, untold, answers]
  cases acknowledgement m r with
  | error f => rfl
  | ok envelope =>
    show (submit g .response envelope >>= _ : Work σ Unit) s = _
    rw [Work.bind_apply, submit]
    rcases hsubmit : g.submit .response envelope s.2.gateway with ⟨reply, st'⟩
    simp only [hsubmit]
    cases reply with
    | accepted | rejected => rfl
    | raised thrown => exact report_apply thrown _

theorem sat_acknowledge {r : PostRequest}
    (hE : ∀ fault, untold g m r s.2.gateway = some fault → E (s.1, ⟨s.2.pending,
      acknowledged g m r s.2.gateway, s.2.metrics.acknowledgementFailed⟩))
    (hQ : untold g m r s.2.gateway = none → Q () (s.1, ⟨s.2.pending,
      acknowledged g m r s.2.gateway,
      if answers g m r s.2.gateway then s.2.metrics else s.2.metrics.acknowledgementFailed⟩)) :
    (acknowledge g m r).Sat s Q E := by
  rw [Work.Sat, acknowledge_apply]
  cases huntold : untold g m r s.2.gateway with
  | none => exact hQ huntold
  | some fault =>
    rw [answers_of_untold huntold]
    exact hE fault huntold

/-! ## The entry points -/

def Done (g : Gateway σ) (now : Timestamp) (m : AssetModule) (st : σ) (metrics : Metrics)
    (c : ModuleCall) (s : Session × Desk σ) : Prop :=
  (∃ body, s.2.pending = [m.event now body] ∧ Commit g m st c s.1.ledger body s.2.gateway) ∧
    s.2.metrics = counted g m st metrics c

/-- What it leaves when it fails: a journal that gives the ledger back. -/
def Failed (g : Gateway σ) (m : AssetModule) (st : σ) (metrics : Metrics) (c : ModuleCall)
    (s : Session × Desk σ) : Prop :=
  s.1.Restores m.ledger ∧ Declined g m st metrics c s.2.gateway s.2.metrics

theorem sat_transfer {caller : String} {p : TransferParams} {metrics : Metrics} :
    (transfer g now m caller p).Sat ((Session.start m.ledger).opened, ⟨[], st, metrics⟩)
      (fun _ => Done g now m st metrics (.transfer caller p))
      (Failed g m st metrics (.transfer caller p)) := by
  have hopen : (Session.start m.ledger).opened.Restores m.ledger := Session.restores_opened _
  have hfail : Failed g m st metrics (.transfer caller p)
      ((Session.start m.ledger).opened, ⟨[], st, metrics⟩) := ⟨hopen, .early⟩
  simp only [transfer, Work.sat_bind]
  refine Work.sat_check hfail (fun sender hsender => ?_)
  refine Work.sat_check hfail (fun t ht => ?_)
  refine Work.sat_check hfail (fun holder hholder => ?_)
  obtain ⟨rfl, hnarrow⟩ := holder_eq_ok.1 hholder
  refine Work.sat_move hfail (fun move hmove => ?_)
  have hmoved : Failed g m st metrics (.transfer caller p)
      ((Session.start m.ledger).opened.move move, ⟨[], st, metrics⟩) :=
    ⟨hopen.move move, .early⟩
  refine Work.sat_ofExcept hmoved (fun payload hpayload => ?_)
  obtain ⟨rfl, hrecipient, -⟩ := Payload.ofArguments_eq_ok.1 hpayload
  refine Work.sat_ofExcept hmoved (fun envelope henvelope => ?_)
  refine sat_dispatch (fun reply st' _ h hreply hmissed => ?_) (fun nonce st' h => ?_)
  · exact ⟨hopen.move move, .dispatch rfl h hreply hmissed⟩
  · exact ⟨⟨_, rfl, .transfer (Params.address_eq_ok.1 hsender) ht hnarrow hrecipient hmove
      henvelope h⟩, rfl⟩

theorem sat_dispatchGet {caller : String} {p : GetParams} {metrics : Metrics} :
    (dispatchGet g now m caller p).Sat ((Session.start m.ledger).opened, ⟨[], st, metrics⟩)
      (fun _ => Done g now m st metrics (.dispatchGet caller p))
      (Failed g m st metrics (.dispatchGet caller p)) := by
  have hopen : (Session.start m.ledger).opened.Restores m.ledger := Session.restores_opened _
  have hfail : Failed g m st metrics (.dispatchGet caller p)
      ((Session.start m.ledger).opened, ⟨[], st, metrics⟩) := ⟨hopen, .early⟩
  simp only [dispatchGet, Work.sat_bind]
  refine Work.sat_check hfail (fun a ha => ?_)
  refine Work.sat_check hfail (fun q hq => ?_)
  refine Work.sat_ofExcept hfail (fun envelope henvelope => ?_)
  refine sat_dispatch (fun reply st' _ h hreply hmissed => ?_) (fun nonce st' h => ?_)
  · exact ⟨hopen, .dispatch rfl h hreply hmissed⟩
  · exact ⟨⟨_, rfl, .dispatchGet (Params.address_eq_ok.1 ha) hq henvelope h⟩, rfl⟩

/-- Every entry point either commits or fails with a journal that gives the ledger back. -/
theorem sat_workOf (c : ModuleCall) (metrics : Metrics) :
    (workOf g now m c).Sat ((Session.start m.ledger).opened, ⟨[], st, metrics⟩)
      (fun _ => Done g now m st metrics c) (Failed g m st metrics c) := by
  have hopen : (Session.start m.ledger).opened.Restores m.ledger := Session.restores_opened _
  -- a check that fails comes before anything was moved, counted or submitted
  have hfail : Failed g m st metrics c ((Session.start m.ledger).opened, ⟨[], st, metrics⟩) :=
    ⟨hopen, .early⟩
  cases c with
  | transfer caller p => exact sat_transfer
  | dispatchGet caller p => exact sat_dispatchGet
  | mint caller account amount =>
    simp only [workOf, mint, Work.sat_bind]
    refine Work.sat_check hfail (fun _ hhost => ?_)
    refine Work.sat_check hfail (fun a ha => ?_)
    refine Work.sat_check hfail (fun n hn => ?_)
    refine Work.sat_check hfail (fun holder hholder => ?_)
    obtain ⟨rfl, hnarrow⟩ := holder_eq_ok.1 hholder
    refine sat_mintTo hfail (fun move hmove => ?_)
    exact ⟨⟨_, rfl, .mint hhost (Params.address_eq_ok.1 ha) hn hnarrow hmove⟩, rfl⟩
  | onAccept caller r =>
    simp only [workOf, onAccept, Work.sat_bind]
    refine Work.sat_check hfail (fun _ hhost => ?_)
    refine Work.sat_check hfail (fun p hp => ?_)
    refine sat_mintTo hfail (fun move hmove => ?_)
    refine sat_acknowledge (fun fault huntold => ?_) (fun huntold => ?_)
    -- here the mint was made and counted, so that `hfail` is of no use
    · exact ⟨hopen.move move, .acknowledgement huntold⟩
    · exact ⟨⟨_, rfl, .onAccept hhost hp hmove huntold⟩, rfl⟩
  | onPostResponse caller r =>
    simp only [workOf, onPostResponse, Work.sat_bind]
    refine Work.sat_check hfail (fun _ hhost => ?_)
    refine Work.sat_check hfail (fun p hp => ?_)
    exact ⟨⟨_, rfl, .onPostResponse hhost hp⟩, rfl⟩
  | onGetResponse caller r =>
    simp only [workOf, onGetResponse, Work.sat_bind]
    refine Work.sat_check hfail (fun _ hhost => ?_)
    refine Work.sat_check hfail (fun _ hvalues => ?_)
    exact ⟨⟨_, rfl, .onGetResponse hhost hvalues⟩, rfl⟩
  | onPostTimeout caller r =>
    simp only [workOf, onPostTimeout, Work.sat_bind]
    refine Work.sat_check hfail (fun _ hhost => ?_)
    refine Work.sat_check hfail (fun p hp => ?_)
    refine sat_mintTo hfail (fun move hmove => ?_)
    exact ⟨⟨_, rfl, .onPostTimeout hhost hp hmove⟩, rfl⟩
  | onGetTimeout caller r =>
    simp only [workOf, onGetTimeout, Work.sat_bind]
    refine Work.sat_check hfail (fun _ hhost => ?_)
    refine Work.sat_check hfail (fun _ hkeys => ?_)
    exact ⟨⟨_, rfl, .onGetTimeout hhost hkeys⟩, rfl⟩

/-! ## Calls -/

variable {c : ModuleCall} {site site' : Site σ}

theorem sat_atomically_workOf (g : Gateway σ) (now : Timestamp) (site : Site σ) (c : ModuleCall) :
    (workOf g now site.assets c).atomically.Sat
      (.start site.assets.ledger, ⟨[], site.gateway, site.metrics⟩)
      (fun _ => Done g now site.assets site.gateway site.metrics c)
      (fun s => s.1 = .start site.assets.ledger ∧
        Declined g site.assets site.gateway site.metrics c s.2.gateway s.2.metrics) := by
  refine Work.sat_atomically (E := fun d : Desk σ =>
    Declined g site.assets site.gateway site.metrics c d.gateway d.metrics) ?_
  exact sat_workOf c site.metrics

/-- A call ends as its work does, its failure bound to the request that it answers. -/
theorem fst_call (g : Gateway σ) (now : Timestamp) (c : ModuleCall) (site : Site σ) :
    (site.call g now c).1 = ((workOf g now site.assets c)
      ((Session.start site.assets.ledger).opened, ⟨[], site.gateway, site.metrics⟩)).1.mapError
        (.bind c.context) := by
  have hjournal : (Session.start site.assets.ledger).journal = none := rfl
  simp only [call, execute, Work.atomically, hjournal]
  rcases workOf g now site.assets c
    ((Session.start site.assets.ledger).opened, ⟨[], site.gateway, site.metrics⟩)
    with ⟨_ | _, t, d⟩
  · rfl
  · rfl

def committed (g : Gateway σ) (now : Timestamp) (c : ModuleCall) (s : Site σ) : List AssetEvent :=
  match (workOf g now s.assets c).atomically (.start s.assets.ledger, ⟨[], s.gateway, s.metrics⟩)
  with
  | (.ok (), _, d) => d.pending
  | (.error _, _, _) => []

theorem outbox_call (g : Gateway σ) (now : Timestamp) (c : ModuleCall) (s : Site σ) :
    (s.call g now c).2.assets.outbox = s.assets.outbox ++ s.committed g now c := by
  rw [call, execute, committed]
  rcases (workOf g now s.assets c).atomically (.start s.assets.ledger, ⟨[], s.gateway, s.metrics⟩)
    with ⟨_ | _, t, d⟩
  · exact (List.append_nil _).symm
  · rfl

theorem committed_of_error {s : Site σ} {f : Failure} (h : (s.call g now c).1 = .error f) :
    s.committed g now c = [] := by
  rw [call, execute] at h
  rw [committed]
  rcases hw : (workOf g now s.assets c).atomically
    (.start s.assets.ledger, ⟨[], s.gateway, s.metrics⟩) with ⟨_ | _, t, d⟩
  · rfl
  · rw [hw] at h
    cases h

theorem call_ok (h : site.call g now c = (.ok (), site')) :
    ∃ l body, Commit g site.assets site.gateway c l body site'.gateway ∧
      site'.assets = { site.assets with
        ledger := l, outbox := site.assets.outbox ++ [site.assets.event now body] } := by
  have hsat := sat_atomically_workOf g now site c
  rw [call, execute] at h
  rcases hw : (workOf g now site.assets c).atomically
    (.start site.assets.ledger, ⟨[], site.gateway, site.metrics⟩) with ⟨_ | _, t, d⟩
  · rw [hw] at h
    cases h
  · obtain ⟨⟨body, hpending, hcommit⟩, -⟩ := hsat.of_ok hw
    rw [hw] at h
    cases h
    have hpending : d.pending = [site.assets.event now body] := hpending
    refine ⟨t.ledger, body, hcommit, ?_⟩
    rw [← hpending]

theorem call_error {f : Failure} (h : site.call g now c = (.error f, site')) :
    site'.assets = site.assets ∧ g.Declines site.gateway site'.gateway := by
  have hsat := sat_atomically_workOf g now site c
  rw [call, execute] at h
  rcases hw : (workOf g now site.assets c).atomically
    (.start site.assets.ledger, ⟨[], site.gateway, site.metrics⟩) with ⟨_ | _, t, d⟩
  · obtain ⟨hledger, hdeclined⟩ := hsat.of_error hw
    rw [hw] at h
    cases h
    simp only at hledger
    subst hledger
    exact ⟨rfl, hdeclined.declines⟩
  · rw [hw] at h
    cases h

theorem assets_of_error {f : Failure} (h : (site.call g now c).1 = .error f) :
    (site.call g now c).2.assets = site.assets := (call_error (Prod.ext h rfl)).1

theorem outcome_bind (f : Failure) (context : Option RequestContext) :
    (f.bind context).outcome = f.outcome := by
  cases f with
  | refused e =>
    obtain ⟨cause, context'⟩ := e
    cases context' with
    | none | some _ => rfl
  | argument | raised => rfl

/-- A call that returns has counted what its entry point counts and that it returned, and one
that fails how it failed, on top of what it had counted by then. -/
theorem call_metrics (g : Gateway σ) (now : Timestamp) (c : ModuleCall) (site : Site σ) :
    match site.call g now c with
    | (.error f, site') => ∃ metrics,
        Declined g site.assets site.gateway site.metrics c site'.gateway metrics ∧
          site'.metrics = metrics.invoked c.entry (.failed f.outcome)
    | (.ok (), site') => site'.metrics =
        ((counted g site.assets site.gateway site.metrics c).invoked c.entry .ok).supplied
          site.assets.chain.id site'.assets.ledger.supply := by
  have hsat := sat_atomically_workOf g now site c
  rw [call, execute]
  rcases hw : (workOf g now site.assets c).atomically
    (.start site.assets.ledger, ⟨[], site.gateway, site.metrics⟩) with ⟨f | _, t, d⟩
  · obtain ⟨-, hdeclined⟩ := hsat.of_error hw
    refine ⟨d.metrics, hdeclined, ?_⟩
    rw [outcome_bind]
  · obtain ⟨-, hcounted⟩ := hsat.of_ok hw
    have hcounted : d.metrics = _ := hcounted
    show Metrics.supplied _ _ _ = _
    rw [hcounted]

/-! ## What no call changes -/

def Submits (g : Gateway σ) (st st' : σ) : Prop :=
  st' = st ∨ ∃ kind envelope, st' = (g.submit kind envelope st).2

theorem submits_of_submit {kind : SubmissionKind} {envelope : String} {reply : Reply Thrown}
    {st' : σ} (h : g.submit kind envelope st = (reply, st')) : Submits g st st' :=
  Or.inr ⟨kind, envelope, (congrArg Prod.snd h).symm⟩

theorem submits_of_declines {st' : σ} (h : g.Declines st st') : Submits g st st' := by
  rcases h with rfl | ⟨kind, envelope, reply, hsubmit, -⟩
  · exact Or.inl rfl
  · exact submits_of_submit hsubmit

theorem Commit.submits {l : Ledger} {body : EventBody} {st' : σ}
    (h : Commit g m st c l body st') : Submits g st st' := by
  cases h with
  | transfer _ _ _ _ _ _ hsubmit => exact submits_of_submit hsubmit
  | dispatchGet _ _ _ hsubmit => exact submits_of_submit hsubmit
  | @onAccept _ r _ _ _ _ _ _ =>
    rw [acknowledged]
    cases acknowledgement m r with
    | error f => exact Or.inl rfl
    | ok envelope => exact Or.inr ⟨_, _, rfl⟩
  | mint | onPostResponse | onGetResponse | onPostTimeout | onGetTimeout => exact Or.inl rfl

/-- Whatever becomes of a call, the module runs where it did under the same host, and its
gateway took at most one submission. -/
theorem call_frame (g : Gateway σ) (now : Timestamp) (c : ModuleCall) (site : Site σ) :
    (∃ l es, (site.call g now c).2.assets = { site.assets with ledger := l, outbox := es }) ∧
      Submits g site.gateway (site.call g now c).2.gateway := by
  rcases h : site.call g now c with ⟨_ | _, site'⟩
  · obtain ⟨hassets, hdeclines⟩ := call_error h
    exact ⟨⟨_, _, hassets⟩, submits_of_declines hdeclines⟩
  · obtain ⟨l, body, hcommit, hassets⟩ := call_ok h
    exact ⟨⟨_, _, hassets⟩, hcommit.submits⟩

end Site
end Interchain
