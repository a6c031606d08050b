/-
Calls are atomic.

The main result is `call_atomic`.  It watches a call through a gateway that writes down
every submission with its reply, and that changes nothing else (`call_recorded`).  A
call that fails leaves the module as it was and no submission accepted.  A call that
returns adds one event, and one that dispatches got one submission of its kind accepted.
No assumption is made on the gateway, which may reject and raise as it likes.
-/
import Interchain.Proofs.Asset.Call

namespace Interchain

structure Filing where
  kind : SubmissionKind
  envelope : String
  reply : Reply Thrown

def Filing.isAccepted (f : Filing) : Bool := f.reply.isAccepted

/-- The gateway, with every submission written down. -/
def Gateway.recorded {σ : Type} (g : Gateway σ) : Gateway (σ × List Filing) :=
  ⟨fun kind envelope s =>
    match g.submit kind envelope s.1 with
    | (reply, st) => (reply, st, s.2 ++ [⟨kind, envelope, reply⟩])⟩

def Desk.unrecorded {σ : Type} (d : Desk (σ × List Filing)) : Desk σ :=
  ⟨d.pending, d.gateway.1, d.metrics⟩

theorem Gateway.log_of_submit {σ : Type} {g : Gateway σ} {kind : SubmissionKind}
    {envelope : String} {s s' : σ × List Filing} {reply : Reply Thrown}
    (h : g.recorded.submit kind envelope s = (reply, s')) :
    s'.2 = s.2 ++ [⟨kind, envelope, reply⟩] := by
  cases h
  rfl

namespace Site

open Ledger

variable {σ : Type} {g : Gateway σ} {now : Timestamp} {m : AssetModule}

/-! ## The record is no more than a record -/

def unrecorded (s : Site (σ × List Filing)) : Site σ := ⟨s.assets, s.gateway.1, s.metrics⟩

theorem follows_measure (f : Metrics → Metrics) :
    Work.Follows Desk.unrecorded (measure f) (measure f : Work σ Unit) :=
  Work.follows_modify (fun _ => rfl)

theorem follows_emit (e : AssetEvent) :
    Work.Follows Desk.unrecorded (emit e) (emit e : Work σ Unit) :=
  Work.follows_modify (fun _ => rfl)

theorem follows_submit (kind : SubmissionKind) (envelope : String) :
    Work.Follows Desk.unrecorded (submit g.recorded kind envelope) (submit g kind envelope) :=
  fun _ => rfl

theorem follows_dispatch (kind : SubmissionKind) (envelope : String) :
    Work.Follows Desk.unrecorded (dispatch g.recorded kind envelope)
      (dispatch g kind envelope) := by
  refine Work.follows_bind (follows_submit kind envelope) (fun reply => ?_)
  cases reply with
  | accepted nonce => exact follows_measure _
  | rejected k reason =>
    exact Work.follows_bind (follows_measure _) (fun _ => Work.follows_check _)
  | raised thrown => exact Work.follows_ofExcept _

theorem follows_mintTo (o : LedgerOperation) (a : Address) (n : Nat) :
    Work.Follows Desk.unrecorded (mintTo o a n) (mintTo o a n : Work σ Unit) :=
  Work.follows_bind (Work.follows_move _) (fun _ => follows_measure _)

theorem follows_report (thrown : Thrown) :
    Work.Follows Desk.unrecorded (report thrown) (report thrown : Work σ Unit) := by
  rw [report, report]
  cases thrown.report with
  | ok => exact Work.follows_pure ()
  | error fault => exact Work.follows_ofExcept _

theorem follows_acknowledge (r : PostRequest) :
    Work.Follows Desk.unrecorded (acknowledge g.recorded m r) (acknowledge g m r) := by
  rw [acknowledge, acknowledge]
  cases acknowledgement m r with
  | error f => exact follows_measure _
  | ok envelope =>
    refine Work.follows_bind (follows_submit .response envelope) (fun reply => ?_)
    cases reply with
    | accepted => exact Work.follows_pure ()
    | rejected => exact follows_measure _
    | raised thrown => exact Work.follows_bind (follows_measure _) (fun _ => follows_report thrown)

theorem follows_workOf (g : Gateway σ) (now : Timestamp) (m : AssetModule) (c : ModuleCall) :
    Work.Follows Desk.unrecorded (workOf g.recorded now m c) (workOf g now m c) := by
  cases c with
  | transfer caller p =>
    refine Work.follows_bind (Work.follows_check _) (fun sender => ?_)
    refine Work.follows_bind (Work.follows_check _) (fun t => ?_)
    refine Work.follows_bind (Work.follows_check _) (fun holder => ?_)
    refine Work.follows_bind (Work.follows_move _) (fun _ => ?_)
    refine Work.follows_bind (Work.follows_ofExcept _) (fun payload => ?_)
    refine Work.follows_bind (Work.follows_ofExcept _) (fun envelope => ?_)
    refine Work.follows_bind (follows_dispatch _ _) (fun _ => ?_)
    exact Work.follows_bind (follows_measure _) (fun _ => follows_emit _)
  | dispatchGet caller p =>
    refine Work.follows_bind (Work.follows_check _) (fun _ => ?_)
    refine Work.follows_bind (Work.follows_check _) (fun q => ?_)
    refine Work.follows_bind (Work.follows_ofExcept _) (fun envelope => ?_)
    exact Work.follows_bind (follows_dispatch _ _) (fun _ => follows_emit _)
  | mint caller account amount =>
    refine Work.follows_bind (Work.follows_check _) (fun _ => ?_)
    refine Work.follows_bind (Work.follows_check _) (fun a => ?_)
    refine Work.follows_bind (Work.follows_check _) (fun n => ?_)
    refine Work.follows_bind (Work.follows_check _) (fun holder => ?_)
    exact Work.follows_bind (follows_mintTo _ _ _) (fun _ => follows_emit _)
  | onAccept caller r =>
    refine Work.follows_bind (Work.follows_check _) (fun _ => ?_)
    refine Work.follows_bind (Work.follows_check _) (fun p => ?_)
    refine Work.follows_bind (follows_mintTo _ _ _) (fun _ => ?_)
    exact Work.follows_bind (follows_acknowledge _) (fun _ => follows_emit _)
  | onPostTimeout caller r =>
    refine Work.follows_bind (Work.follows_check _) (fun _ => ?_)
    refine Work.follows_bind (Work.follows_check _) (fun p => ?_)
    exact Work.follows_bind (follows_mintTo _ _ _) (fun _ => follows_emit _)
  | onPostResponse caller p | onGetResponse caller p | onGetTimeout caller r =>
    refine Work.follows_bind (Work.follows_check _) (fun _ => ?_)
    exact Work.follows_bind (Work.follows_check _) (fun _ => follows_emit _)

/-- Writing the submissions down changes nothing of a call. -/
theorem call_recorded (g : Gateway σ) (now : Timestamp) (c : ModuleCall)
    (s : Site (σ × List Filing)) :
    s.unrecorded.call g now c =
      ((s.call g.recorded now c).1, (s.call g.recorded now c).2.unrecorded) := by
  have h := Work.follows_atomically (follows_workOf g now s.assets c)
    (.start s.assets.ledger, ⟨[], s.gateway, s.metrics⟩)
  simp only [Desk.unrecorded] at h
  simp only [call, execute, unrecorded, h]
  rcases (workOf g.recorded now s.assets c).atomically
    (.start s.assets.ledger, ⟨[], s.gateway, s.metrics⟩) with ⟨_ | _, t, d⟩
  · rfl
  · rfl

/-! ## Atomicity -/

theorem filed_of_declines {s s' : σ × List Filing} (h : g.recorded.Declines s s') :
    ∃ filed, s'.2 = s.2 ++ filed ∧ filed.filter Filing.isAccepted = [] := by
  rcases h with rfl | ⟨kind, envelope, reply, hsubmit, hreply⟩
  · exact ⟨[], (List.append_nil _).symm, rfl⟩
  · refine ⟨[⟨kind, envelope, reply⟩], Gateway.log_of_submit hsubmit, ?_⟩
    exact List.filter_cons_of_neg (by rw [Filing.isAccepted, hreply]; exact Bool.false_ne_true)

/-- A commit got at most one submission through, and a dispatch exactly one of its kind. -/
theorem filed_of_commit {s s' : σ × List Filing} {c : ModuleCall} {l : Ledger} {body : EventBody}
    (h : Commit g.recorded m s c l body s') :
    ∃ filed, s'.2 = s.2 ++ filed ∧ ∀ kind, c.dispatches = some kind →
      (filed.filter Filing.isAccepted).map Filing.kind = [kind] := by
  cases h with
  | transfer _ _ _ _ _ _ hsubmit | dispatchGet _ _ _ hsubmit =>
    refine ⟨_, Gateway.log_of_submit hsubmit, fun kind hkind => ?_⟩
    cases hkind
    rfl
  | @onAccept caller r p move _ _ _ _ =>
    rw [acknowledged]
    cases acknowledgement m r with
    | error f => exact ⟨[], (List.append_nil _).symm, fun kind hkind => by cases hkind⟩
    | ok envelope => exact ⟨_, Gateway.log_of_submit rfl, fun kind hkind => by cases hkind⟩
  | mint | onPostResponse | onGetResponse | onPostTimeout | onGetTimeout =>
    exact ⟨[], (List.append_nil _).symm, fun kind hkind => by cases hkind⟩

/-- Every call is atomic.  One that fails leaves the module as it was, order of accounts
and pending events included, and the gateway accepted nothing.  One that returns adds
exactly one event, and if it dispatches, the gateway accepted exactly one submission, of
the kind that the call dispatches. -/
theorem call_atomic (g : Gateway σ) (now : Timestamp) (c : ModuleCall)
    (s : Site (σ × List Filing)) :
    s.unrecorded.call g now c =
        ((s.call g.recorded now c).1, (s.call g.recorded now c).2.unrecorded) ∧
      ∃ filed, (s.call g.recorded now c).2.gateway.2 = s.gateway.2 ++ filed ∧
        match s.call g.recorded now c with
        | (.error _, s') => s'.assets = s.assets ∧ filed.filter Filing.isAccepted = []
        | (.ok (), s') =>
          (∃ e, s'.assets.outbox = s.assets.outbox ++ [e]) ∧
            ∀ kind, c.dispatches = some kind →
              (filed.filter Filing.isAccepted).map Filing.kind = [kind] := by
  refine ⟨call_recorded g now c s, ?_⟩
  rcases h : s.call g.recorded now c with ⟨_ | _, s'⟩
  · obtain ⟨hassets, hdeclines⟩ := call_error h
    obtain ⟨filed, hfiled, hnone⟩ := filed_of_declines hdeclines
    exact ⟨filed, hfiled, hassets, hnone⟩
  · obtain ⟨l, body, hcommit, hassets⟩ := call_ok h
    obtain ⟨filed, hfiled, hkind⟩ := filed_of_commit hcommit
    refine ⟨filed, hfiled, ⟨s.assets.event now body, ?_⟩, hkind⟩
    rw [hassets]

/-! ## Calls that dispatch nothing -/

/-- A call that dispatches nothing and fails has not got to the gateway, unless the gateway raised
at its acknowledgement what cannot be reported. -/
theorem gateway_of_error {c : ModuleCall} (hc : c.dispatches = none) {site site' : Site σ}
    (htold : ∀ caller r, c = .onAccept caller r →
      untold g site.assets r site.gateway = none)
    {f : Failure} (h : site.call g now c = (.error f, site')) : site'.gateway = site.gateway := by
  have hmetrics := call_metrics g now c site
  rw [h] at hmetrics
  obtain ⟨metrics, hdeclined, -⟩ := hmetrics
  generalize site'.gateway = st' at hdeclined
  cases hdeclined with
  | early => rfl
  | dispatch hdispatches => cases hc.symm.trans hdispatches
  | acknowledgement huntold => cases (htold _ _ rfl).symm.trans huntold

end Site
end Interchain
