/-
Metrics and events tell the same story.

Modules that report to the same metrics are called in any order, their outboxes are emptied, and
their gateways accept, reject and raise as they like.  `Fleet` keeps a log of the calls beside
them: how each ended, the events that it added to the outbox and what its gateway was handed.
Several counts are raised while a call is under way, before it is known to commit.  What may
fail in a call comes before the first of them, with one exception: an acknowledgement whose
failure cannot be reported takes back the mint before it, and the mint stays counted.  Such a
call shows in the log, so that what a call adds to the readings of the metrics can be told from
its entry there (`read_call`).  Over a run the readings are the sums over the log, which are
numbers of events and of calls (`metrics_reconcile`).
-/
import Mathlib.Logic.Function.Basic
import Interchain.Proofs.Asset.Acceptance
import Interchain.Proofs.Asset.Atomicity
import Interchain.Proofs.Metrics

namespace Interchain

/-! ## What an event stands for -/

namespace EventBody

def mintReason? : EventBody → Option MintReason
  | .balanceMinted _ _ _ _ reason => some reason
  | .balanceBurnt _ _ _ _ | .getDispatched _ _ _ | .responseReceived _ _ _ _
  | .timeoutReceived _ _ _ => none

def raises : EventBody → Reading → Bool
  | .balanceBurnt _ _ _ _, r => r = .operation .burn || r = .accepted .post
  | .getDispatched _ _ _, r => r = .accepted .get
  | .balanceMinted _ _ _ _ .accept, r | .balanceMinted _ _ _ _ .genesis, r => r = .operation .mint
  | .balanceMinted _ _ _ _ .timeout, r => r = .operation .refund
  | .responseReceived _ _ _ _, _ | .timeoutReceived _ _ _, _ => false

section

variable (b : EventBody)

theorem raises_burn : b.raises (.operation .burn) = decide (b.type = .balanceBurnt) := by
  rcases b with _ | _ | ⟨_, _, _, _, _ | _ | _⟩ | _ | _ <;> rfl

theorem raises_post : b.raises (.accepted .post) = decide (b.type = .balanceBurnt) := by
  rcases b with _ | _ | ⟨_, _, _, _, _ | _ | _⟩ | _ | _ <;> rfl

theorem raises_mint : b.raises (.operation .mint) =
    decide (b.mintReason? = some .accept ∨ b.mintReason? = some .genesis) := by
  rcases b with _ | _ | ⟨_, _, _, _, _ | _ | _⟩ | _ | _ <;> rfl

theorem raises_refund : b.raises (.operation .refund) =
    decide (b.mintReason? = some .timeout) := by
  rcases b with _ | _ | ⟨_, _, _, _, _ | _ | _⟩ | _ | _ <;> rfl

theorem raises_get : b.raises (.accepted .get) = decide (b.type = .getDispatched) := by
  rcases b with _ | _ | ⟨_, _, _, _, _ | _ | _⟩ | _ | _ <;> rfl

theorem raises_eq_false (entry : EntryPoint) : b.raises (.called entry) = false ∧
    b.raises (.returned entry) = false ∧ b.raises .unacknowledged = false := by
  rcases b with _ | _ | ⟨_, _, _, _, _ | _ | _⟩ | _ | _ <;> exact ⟨rfl, rfl, rfl⟩

end

end EventBody

/-! ## What one call adds -/

namespace Site

variable {σ : Type} {g : Gateway σ} {m : AssetModule} {st st' : σ} {c : ModuleCall} {l : Ledger}
  {body : EventBody}

def isUnanswered (g : Gateway σ) (m : AssetModule) (st : σ) : ModuleCall → Bool
  | .onAccept _ r => !answers g m r st
  | .transfer _ _ | .dispatchGet _ _ | .mint _ _ _ | .onPostResponse _ _ | .onGetResponse _ _
  | .onPostTimeout _ _ | .onGetTimeout _ _ => false

/-- What a call counts is what its event stands for, and an acknowledgement that failed. -/
theorem Commit.read_counted (h : Commit g m st c l body st') (mx : Metrics) (r : Reading) :
    (counted g m st mx c).read r = mx.read r + (if body.raises r then 1 else 0) +
      if r = .unacknowledged ∧ isUnanswered g m st c then 1 else 0 := by
  cases h with
  | transfer =>
    rw [counted, Metrics.read_operated, Metrics.read_dispatched]
    cases r <;> simp [EventBody.raises, isUnanswered]
  | dispatchGet =>
    rw [counted, Metrics.read_dispatched]
    cases r <;> simp [EventBody.raises, isUnanswered]
  | mint | onPostTimeout =>
    rw [counted, Metrics.read_operated]
    cases r <;> simp [EventBody.raises, isUnanswered]
  | @onAccept caller request =>
    rw [counted, isUnanswered]
    cases answers g m request st with
    | true =>
      rw [if_pos rfl, Metrics.read_operated]
      cases r <;> simp [EventBody.raises]
    | false =>
      rw [if_neg Bool.false_ne_true, Metrics.read_acknowledgementFailed, Metrics.read_operated]
      cases r <;> simp [EventBody.raises]
  | onPostResponse | onGetResponse | onGetTimeout => simp [counted, EventBody.raises, isUnanswered]

end Site

/-- A call of one of several modules: how it ended, the events that it added to the outbox, and
what its gateway was handed, with the replies. -/
structure FleetEntry (ι : Type) where
  index : ι
  call : ModuleCall
  outcome : Except Failure Unit
  events : List AssetEvent
  filed : List Filing

namespace FleetEntry

variable {ι : Type}

def isOf (entry : EntryPoint) (x : FleetEntry ι) : Bool := x.call.entry = entry

def isSuccessOf (entry : EntryPoint) (x : FleetEntry ι) : Bool := x.isOf entry && x.outcome.isOk

def isUnacknowledged (x : FleetEntry ι) : Bool :=
  x.isSuccessOf .onAccept && !x.filed.any (fun f => f.kind = .response && f.isAccepted)

/-- The gateway was handed the acknowledgement of a request, and the call failed. -/
def isUndone (x : FleetEntry ι) : Bool :=
  x.isOf .onAccept && !x.outcome.isOk && x.filed.any (fun f => f.kind = .response)

def undoes (x : FleetEntry ι) (r : Reading) : Bool :=
  x.isUndone && decide (r = .operation .mint ∨ r = .unacknowledged)

def raises (x : FleetEntry ι) : Reading → Bool
  | .called entry => x.isOf entry
  | .returned entry => x.isSuccessOf entry
  | .unacknowledged => x.isUnacknowledged
  | .operation _ | .accepted _ => false

variable {x : FleetEntry ι} {f : Failure}

theorem raises_of_error (h : x.outcome = .error f) (r : Reading) :
    x.raises r = decide (r = .called x.call.entry) := by
  have hfailed : x.outcome.isOk = false := by rw [h]; rfl
  cases r <;> simp [raises, isUnacknowledged, isSuccessOf, isOf, hfailed, eq_comm]

theorem raises_of_ok (h : x.outcome = .ok ()) (r : Reading) :
    x.raises r = (decide (r = .called x.call.entry ∨ r = .returned x.call.entry) ||
      r = .unacknowledged && x.isUnacknowledged) := by
  have hreturned : x.outcome.isOk = true := by rw [h]; rfl
  cases r <;> simp [raises, isUnacknowledged, isSuccessOf, isOf, hreturned, eq_comm]

theorem undoes_of_ok (h : x.outcome = .ok ()) (r : Reading) : x.undoes r = false := by
  have hreturned : x.outcome.isOk = true := by rw [h]; rfl
  rw [undoes, isUndone, hreturned, Bool.not_true, Bool.and_false, Bool.false_and, Bool.false_and]

theorem countP_undoes (log : List (FleetEntry ι)) (r : Reading) :
    log.countP (fun e => e.undoes r) =
      if r = .operation .mint ∨ r = .unacknowledged then log.countP isUndone else 0 := by
  simp only [undoes]
  split
  · next hr => simp only [decide_eq_true hr, Bool.and_true]
  · next hr =>
    simp only [decide_eq_false hr, Bool.and_false]
    exact congrFun List.countP_false log

end FleetEntry

namespace Site

variable {σ ι : Type} {g : Gateway σ} {m : AssetModule} {st : σ} {c : ModuleCall} {l : Ledger}
  {body : EventBody}

def unwritten (s : Site σ) : Site (σ × List Filing) := ⟨s.assets, (s.gateway, []), s.metrics⟩

def entry (g : Gateway σ) (now : Timestamp) (i : ι) (c : ModuleCall) (s : Site σ) :
    FleetEntry ι where
  index := i
  call := c
  outcome := (s.call g now c).1
  events := s.committed g now c
  filed := (s.unwritten.call g.recorded now c).2.gateway.2

/-- The gateway has not accepted an acknowledgement if it has written down no accepted response. -/
theorem Commit.isUnanswered_recorded {s' : σ × List Filing}
    (h : Commit g.recorded m (st, []) c l body s') :
    isUnanswered g.recorded m (st, []) c = (decide (c.entry = .onAccept) &&
      !s'.2.any (fun f => f.kind = .response && f.isAccepted)) := by
  cases h with
  | @onAccept caller r =>
    rw [isUnanswered, answers, acknowledged]
    cases acknowledgement m r with
    | error f => rfl
    | ok envelope =>
      rcases hsubmit : g.submit .response envelope st with ⟨reply, st'⟩
      have hfiled : g.recorded.submit .response envelope (st, []) =
          (reply, st', [⟨.response, envelope, reply⟩]) := by
        rw [Gateway.recorded]
        simp only [hsubmit, List.nil_append]
      simp only [hfiled]
      cases reply <;> rfl
  | transfer | dispatchGet | mint | onPostResponse | onGetResponse | onPostTimeout
  | onGetTimeout => rfl

/-- A call that fails has raised no readings, unless its mint was undone. -/
theorem Declined.read_recorded {s' : σ × List Filing} {mx mx' : Metrics}
    (h : Declined g.recorded m (st, []) mx c s' mx') (r : Reading) :
    mx'.read r = mx.read r +
      if (decide (c.entry = .onAccept) && s'.2.any (fun f => f.kind = .response)) &&
        decide (r = .operation .mint ∨ r = .unacknowledged) then 1 else 0 := by
  cases h with
  | early =>
    show _ = _ + if (_ && false) && _ then 1 else 0
    rw [Bool.and_false, Bool.false_and]
    rfl
  | dispatch hdispatches _ _ hmissed =>
    have hentry : c.entry ≠ .onAccept := by
      cases c with
      | onAccept => cases hdispatches
      | transfer | dispatchGet | mint | onPostResponse | onGetResponse | onPostTimeout
      | onGetTimeout => exact nofun
    rw [decide_eq_false hentry, Bool.false_and, Bool.false_and]
    rcases hmissed with rfl | ⟨kind, rfl⟩
    · rfl
    · rw [Metrics.read_dispatched, if_neg (fun h => nomatch h.2)]
      rfl
  | acknowledgement huntold =>
    obtain ⟨envelope, hencode, -⟩ := exists_acknowledgement_of_untold huntold
    rw [acknowledged, hencode, Metrics.read_acknowledgementFailed, Metrics.read_operated]
    cases r <;> simp [Gateway.recorded, ModuleCall.entry]

/-- A mint is undone only over a gateway that raises what cannot be reported. -/
theorem Declined.exists_fault {s' : σ × List Filing} {mx mx' : Metrics}
    (h : Declined g.recorded m (st, []) mx c s' mx') (hentry : c.entry = .onAccept)
    (hfiled : s'.2.any (fun f => f.kind = .response) = true) :
    ∃ envelope, (g.submit .response envelope st).1.fault? ≠ none := by
  cases h with
  | early => cases hfiled
  | dispatch hdispatches _ _ _ =>
    cases c with
    | transfer | dispatchGet => cases hentry
    | mint | onAccept | onPostResponse | onGetResponse | onPostTimeout | onGetTimeout =>
      cases hdispatches
  | acknowledgement huntold =>
    obtain ⟨envelope, -, hfault⟩ := exists_acknowledgement_of_untold huntold
    have hfault : (g.submit .response envelope st).1.fault? = some _ := hfault
    exact ⟨envelope, by rw [hfault]; exact nofun⟩

section

variable {now : Timestamp} {i : ι} {s : Site σ} {s' : Site (σ × List Filing)}
  {outcome : Except Failure Unit} {es : List AssetEvent}

theorem call_unwritten (h : s.unwritten.call g.recorded now c = (outcome, s')) :
    s.call g now c = (outcome, s'.unrecorded) := by
  have hrecorded := call_recorded g now c s.unwritten
  rw [h] at hrecorded
  exact hrecorded

theorem entry_eq (h : s.unwritten.call g.recorded now c = (outcome, s'))
    (houtbox : s'.assets.outbox = s.assets.outbox ++ es) :
    s.entry g now i c = ⟨i, c, outcome, es, s'.gateway.2⟩ := by
  have hcommitted : s.committed g now c = es := by
    have hadded := outbox_call g now c s
    rw [call_unwritten h] at hadded
    exact List.append_cancel_left (hadded.symm.trans houtbox)
  rw [entry, hcommitted, call_unwritten h, h]

end

/-- A call raises the readings that its events and its entry in the log account for. -/
theorem read_call (g : Gateway σ) (now : Timestamp) (i : ι) (c : ModuleCall) (s : Site σ)
    (r : Reading) :
    (s.call g now c).2.metrics.read r = s.metrics.read r +
      (s.entry g now i c).events.countP (fun e => e.body.raises r) +
      (if (s.entry g now i c).raises r then 1 else 0) +
      if (s.entry g now i c).undoes r then 1 else 0 := by
  -- The log knows what the gateway was handed, so the call is looked at over a gateway that
  -- writes that down.
  have hmetrics := call_metrics g.recorded now c s.unwritten
  rcases h : s.unwritten.call g.recorded now c with ⟨f | _, s'⟩
  · rw [h] at hmetrics
    obtain ⟨mx, hdeclined, hs'⟩ := hmetrics
    have hdeclined : Declined g.recorded s.assets (s.gateway, []) s.metrics c s'.gateway mx :=
      hdeclined
    have houtbox : s'.assets.outbox = s.assets.outbox ++ [] := by
      rw [(call_error h).1, List.append_nil]
      rfl
    have hname : (CallOutcome.failed f.outcome).name ≠ CallOutcome.ok.name := f.outcome_ne_ok
    rw [entry_eq h houtbox, FleetEntry.raises_of_error rfl, call_unwritten h]
    show s'.metrics.read r = _
    rw [hs', Metrics.read_invoked, hdeclined.read_recorded r]
    simp [hname, FleetEntry.undoes, FleetEntry.isUndone, FleetEntry.isOf, Except.isOk,
      Except.toBool]
    exact Nat.add_right_comm _ _ _
  · rw [h] at hmetrics
    obtain ⟨l, body, hcommit, hassets⟩ := call_ok h
    have houtbox : s'.assets.outbox = s.assets.outbox ++ [s.assets.event now body] := by
      rw [hassets]
      rfl
    have hcommit : Commit g.recorded s.assets (s.gateway, []) c l body s'.gateway := hcommit
    have hmetrics : s'.metrics =
      ((counted g.recorded s.assets (s.gateway, []) s.metrics c).invoked c.entry .ok).supplied
        s.assets.chain.id s'.assets.ledger.supply := hmetrics
    rw [entry_eq h houtbox, FleetEntry.raises_of_ok rfl, FleetEntry.undoes_of_ok rfl,
      call_unwritten h, if_neg Bool.false_ne_true]
    show s'.metrics.read r = _
    rw [hmetrics, Metrics.read_supplied, Metrics.read_invoked, hcommit.read_counted,
      hcommit.isUnanswered_recorded, List.countP_singleton]
    show _ = _ + (if body.raises r then 1 else 0) + _
    cases r with
    | called | returned | operation | accepted => simp
    | unacknowledged =>
      simp [FleetEntry.isUnacknowledged, FleetEntry.isSuccessOf, FleetEntry.isOf, Except.isOk,
        Except.toBool]

theorem exists_fault_of_isUndone (g : Gateway σ) (now : Timestamp) (i : ι) (c : ModuleCall)
    (s : Site σ) (hundone : (s.entry g now i c).isUndone = true) :
    ∃ envelope, (g.submit .response envelope s.gateway).1.fault? ≠ none := by
  have hmetrics := call_metrics g.recorded now c s.unwritten
  rw [FleetEntry.isUndone, Bool.and_eq_true, Bool.and_eq_true] at hundone
  obtain ⟨⟨hentry, hfailed⟩, hfiled⟩ := hundone
  rcases h : s.unwritten.call g.recorded now c with ⟨f | _, s'⟩
  · rw [h] at hmetrics
    obtain ⟨mx, hdeclined, -⟩ := hmetrics
    rw [entry, h] at hfiled
    have hdeclined : Declined g.recorded s.assets (s.gateway, []) s.metrics c s'.gateway mx :=
      hdeclined
    exact hdeclined.exists_fault (of_decide_eq_true hentry) hfiled
  · rw [entry, call_unwritten h] at hfailed
    cases hfailed

end Site

/-! ## Fleets -/

/-- Several modules, the events that were taken from their outboxes, what their gateways share,
their common metrics, and the calls made of them so far. -/
structure Fleet (ι σ : Type) where
  modules : ι → AssetModule
  taken : ι → List AssetEvent
  gateway : σ
  metrics : Metrics
  log : List (FleetEntry ι)

/-- What can happen to a fleet; a turn is whatever changes its gateways between calls. -/
inductive FleetStep (ι σ : Type)
  | call (i : ι) (now : Timestamp) (c : ModuleCall)
  | drain (i : ι)
  | discard (i : ι) (count : Int)
  | turn (f : σ → σ)

namespace Fleet

variable {ι σ : Type} [DecidableEq ι]

def start (modules : ι → AssetModule) (st : σ) : Fleet ι σ :=
  ⟨modules, fun _ => [], st, .zero, []⟩

def site (x : Fleet ι σ) (i : ι) : Site σ := ⟨x.modules i, x.gateway, x.metrics⟩

def call (g : Gateway σ) (x : Fleet ι σ) (i : ι) (now : Timestamp) (c : ModuleCall) : Fleet ι σ :=
  let s := ((x.site i).call g now c).2
  { x with
    modules := Function.update x.modules i s.assets
    gateway := s.gateway
    metrics := s.metrics
    log := x.log ++ [(x.site i).entry g now i c] }

/-- Takes events from an outbox; the second outcome is what stays there. -/
def take (x : Fleet ι σ) (i : ι) (r : List AssetEvent × AssetModule) : Fleet ι σ :=
  { x with
    modules := Function.update x.modules i r.2
    taken := Function.update x.taken i (x.taken i ++ r.1) }

def step (g : ι → Gateway σ) (x : Fleet ι σ) : FleetStep ι σ → Fleet ι σ
  | .call i now c => x.call (g i) i now c
  | .drain i => x.take i (x.modules i).drainEvents
  | .discard i count => x.take i
      ((x.modules i).outbox.take count.toNat, (x.modules i).discardEvents count)
  | .turn f => { x with gateway := f x.gateway }

def run (g : ι → Gateway σ) (x : Fleet ι σ) (steps : List (FleetStep ι σ)) : Fleet ι σ :=
  steps.foldl (step g) x

def events (x : Fleet ι σ) : List AssetEvent := x.log.flatMap FleetEntry.events

def eventsOf (x : Fleet ι σ) (i : ι) : List AssetEvent :=
  (x.log.filter (fun e => e.index = i)).flatMap FleetEntry.events

/-- The log accounts for the readings of the metrics and for the outboxes. -/
structure Reconciles (g : ι → Gateway σ) (modules : ι → AssetModule) (x : Fleet ι σ) : Prop where
  readings : ∀ r, x.metrics.read r =
    x.events.countP (fun e => e.body.raises r) + x.log.countP (fun e => e.raises r) +
      x.log.countP (fun e => e.undoes r)
  faults : ∀ e ∈ x.log, e.isUndone = true →
    ∃ envelope st, ((g e.index).submit .response envelope st).1.fault? ≠ none
  outboxes : ∀ i, x.taken i ++ (x.modules i).outbox = (modules i).outbox ++ x.eventsOf i

variable {g : ι → Gateway σ} {modules : ι → AssetModule} {x : Fleet ι σ}

theorem reconciles_start (g : ι → Gateway σ) (modules : ι → AssetModule) (st : σ) :
    (start modules st).Reconciles g modules :=
  ⟨Metrics.read_zero, List.forall_mem_nil _, fun _ => (List.append_nil _).symm⟩

section

variable (x : Fleet ι σ) (g : Gateway σ) (i : ι) (now : Timestamp) (c : ModuleCall)

theorem events_call :
    (x.call g i now c).events = x.events ++ ((x.site i).entry g now i c).events := by
  show (x.log ++ [_]).flatMap FleetEntry.events = _
  rw [List.flatMap_append, List.flatMap_singleton]
  rfl

theorem eventsOf_call (j : ι) : (x.call g i now c).eventsOf j =
    x.eventsOf j ++ if j = i then ((x.site i).entry g now i c).events else [] := by
  show ((x.log ++ [(x.site i).entry g now i c]).filter (fun e => e.index = j)).flatMap
    FleetEntry.events = _
  rw [List.filter_append, List.flatMap_append, List.filter_singleton]
  by_cases hj : j = i
  · have hown : decide (((x.site i).entry g now i c).index = j) = true := decide_eq_true hj.symm
    rw [if_pos hj, hown]
    exact congrArg _ (List.flatMap_singleton _ _)
  · have hother : decide (((x.site i).entry g now i c).index = j) = false :=
      decide_eq_false (fun h => hj h.symm)
    rw [if_neg hj, hother]
    rfl

end

theorem Reconciles.call (h : x.Reconciles g modules) (i : ι) (now : Timestamp)
    (c : ModuleCall) : (x.call (g i) i now c).Reconciles g modules := by
  refine ⟨fun r => ?_, ?_, fun j => ?_⟩
  · rw [events_call, List.countP_append]
    show ((x.site i).call (g i) now c).2.metrics.read r =
      _ + (x.log ++ [_]).countP _ + (x.log ++ [_]).countP _
    rw [Site.read_call (g i) now i c, List.countP_append, List.countP_append,
      List.countP_singleton, List.countP_singleton]
    show x.metrics.read r + _ + _ + _ = _
    rw [h.readings r]
    omega
  · refine List.forall_mem_append.2 ⟨h.faults, List.forall_mem_singleton.2 (fun hundone => ?_)⟩
    obtain ⟨envelope, hfault⟩ := Site.exists_fault_of_isUndone (g i) now i c (x.site i) hundone
    exact ⟨envelope, _, hfault⟩
  · rw [eventsOf_call, ← List.append_assoc, ← h.outboxes j]
    show x.taken j ++
      (Function.update x.modules i ((x.site i).call (g i) now c).2.assets j).outbox = _
    by_cases hj : j = i
    · subst hj
      rw [Function.update_self, Site.outbox_call (g j) now c, if_pos rfl, List.append_assoc]
      rfl
    · rw [Function.update_of_ne hj, if_neg hj, List.append_nil]

theorem Reconciles.take (h : x.Reconciles g modules) (i : ι)
    {r : List AssetEvent × AssetModule} (hr : r.1 ++ r.2.outbox = (x.modules i).outbox) :
    (x.take i r).Reconciles g modules := by
  refine ⟨h.readings, h.faults, fun j => ?_⟩
  show Function.update x.taken i (x.taken i ++ r.1) j ++
    (Function.update x.modules i r.2 j).outbox = _ ++ x.eventsOf j
  by_cases hj : j = i
  · subst hj
    rw [Function.update_self, Function.update_self, List.append_assoc, hr, h.outboxes]
  · rw [Function.update_of_ne hj, Function.update_of_ne hj, h.outboxes]

theorem Reconciles.step (h : x.Reconciles g modules) (t : FleetStep ι σ) :
    (x.step g t).Reconciles g modules := by
  cases t with
  | call i now c => exact h.call i now c
  | drain i => exact h.take i (List.append_nil _)
  | discard i count => exact h.take i (List.take_append_drop _ _)
  | turn f => exact ⟨h.readings, h.faults, h.outboxes⟩

theorem Reconciles.run (h : x.Reconciles g modules) (steps : List (FleetStep ι σ)) :
    (x.run g steps).Reconciles g modules := by
  induction steps generalizing x with
  | nil => exact h
  | cons t steps ih => exact ih (h.step t)

theorem Reconciles.read_events (h : x.Reconciles g modules) {r : Reading} {p : EventBody → Bool}
    (hcalls : ∀ e : FleetEntry ι, e.raises r = false)
    (hevents : ∀ b : EventBody, b.raises r = p b) :
    x.metrics.read r = x.events.countP (fun e => p e.body) +
      if r = .operation .mint ∨ r = .unacknowledged then x.log.countP FleetEntry.isUndone
      else 0 := by
  have hnone : x.log.countP (fun e => e.raises r) = 0 :=
    List.countP_eq_zero.2 (fun e _ => Bool.eq_false_iff.1 (hcalls e))
  simp only [h.readings, FleetEntry.countP_undoes, hnone, hevents, Nat.add_zero]

theorem Reconciles.read_calls (h : x.Reconciles g modules) {r : Reading}
    (hevents : ∀ b : EventBody, b.raises r = false) :
    x.metrics.read r = x.log.countP (fun e => e.raises r) +
      if r = .operation .mint ∨ r = .unacknowledged then x.log.countP FleetEntry.isUndone
      else 0 := by
  have hnone : x.events.countP (fun e => e.body.raises r) = 0 :=
    List.countP_eq_zero.2 (fun e _ => Bool.eq_false_iff.1 (hevents e.body))
  rw [h.readings, FleetEntry.countP_undoes, hnone, Nat.zero_add]

/-- Modules in any state are called in any way, their outboxes are emptied, and their gateways do
as they like.  From the moment on in which the metrics were reset, burns and accepted posts are as
many as events of a burn, refunds as many as events of a mint on a timeout, and accepted gets as
many as events of a query.  The invocations of an entry point are as many as its calls, and those
shown as successes as many as its calls that returned.  Mints are as many as events of a mint on
acceptance or as genesis, and failures to acknowledge as many as requests that were accepted
without an acknowledgement that the gateway accepted; but to both are added the calls that failed
after the gateway was handed the acknowledgement, of which there are none before gateways that
raise nothing that cannot be reported.  The events are those that the modules have committed:
whatever was taken from an outbox or is still there. -/
theorem metrics_reconcile (g : ι → Gateway σ) (modules : ι → AssetModule) (st : σ)
    (steps : List (FleetStep ι σ)) :
    let x := (start modules st).run g steps
    let burnt := x.events.countP (fun e => e.body.type = .balanceBurnt)
    let undone := x.log.countP (fun e =>
      e.call.entry = .onAccept && !e.outcome.isOk && e.filed.any (fun f => f.kind = .response))
    x.metrics.ledgerOperations.count .burn = burnt ∧
    x.metrics.dispatches.count (.post, .accepted) = burnt ∧
    x.metrics.ledgerOperations.count .mint = x.events.countP (fun e =>
      e.body.mintReason? = some .accept ∨ e.body.mintReason? = some .genesis) + undone ∧
    x.metrics.ledgerOperations.count .refund =
      x.events.countP (fun e => e.body.mintReason? = some .timeout) ∧
    x.metrics.dispatches.count (.get, .accepted) =
      x.events.countP (fun e => e.body.type = .getDispatched) ∧
    (∀ entry, x.metrics.invocations.total (fun k => k.1 = entry) =
      x.log.countP (fun e => e.call.entry = entry)) ∧
    (∀ entry, x.metrics.invocations.total (fun k => k.1 = entry && k.2.name == "ok") =
      x.log.countP (fun e => e.call.entry = entry && e.outcome.isOk)) ∧
    x.metrics.acknowledgementFailures = x.log.countP (fun e =>
      e.call.entry = .onAccept && e.outcome.isOk &&
        !e.filed.any (fun f => f.kind = .response && f.isAccepted)) + undone ∧
    ((∀ i envelope st, ((g i).submit .response envelope st).1.fault? = none) → undone = 0) ∧
    ∀ i, x.taken i ++ (x.modules i).outbox = (modules i).outbox ++ x.eventsOf i := by
  intro x burnt undone
  have h : x.Reconciles g modules := (reconciles_start g modules st).run steps
  refine ⟨h.read_events (fun _ => rfl) EventBody.raises_burn,
    h.read_events (fun _ => rfl) EventBody.raises_post,
    h.read_events (fun _ => rfl) EventBody.raises_mint,
    h.read_events (fun _ => rfl) EventBody.raises_refund,
    h.read_events (fun _ => rfl) EventBody.raises_get,
    fun entry => h.read_calls (fun b => (b.raises_eq_false entry).1),
    fun entry => h.read_calls (fun b => (b.raises_eq_false entry).2.1),
    h.read_calls (fun b => (b.raises_eq_false .onAccept).2.2), fun htold => ?_, h.outboxes⟩
  refine List.countP_eq_zero.2 (fun e he hundone => ?_)
  obtain ⟨envelope, st', hfault⟩ := h.faults e he hundone
  exact hfault (htold e.index envelope st')

def single (g : Gateway Unit) (c : ModuleCall) : Fleet Unit Unit :=
  (start (fun _ => Site.vacant.assets) ()).run (fun _ => g) [.call () ⟨0⟩ c]

section

variable (g : Gateway Unit) (c : ModuleCall)

theorem events_single : (single g c).events = Site.vacant.committed g ⟨0⟩ c :=
  List.flatMap_singleton _ _

theorem countP_single : (single g c).log.countP (fun e => e.outcome.isOk) =
    if (Site.vacant.call g ⟨0⟩ c).1.isOk then 1 else 0 := List.countP_singleton

theorem metrics_single : (single g c).metrics = (Site.vacant.call g ⟨0⟩ c).2.metrics := rfl

end

/-- Before a gateway that accepts the mints that were counted are those of the events. -/
theorem metrics_reconcile_single :
    let x := single Site.agreeable (Site.giving 0)
    (∀ envelope, (Site.agreeable.submit .response envelope ()).1.fault? = none) ∧
    x.metrics.ledgerOperations.count .mint = x.events.countP (fun e =>
      e.body.mintReason? = some .accept ∨ e.body.mintReason? = some .genesis) := by
  obtain ⟨-, -, hmint, -, -, -, -, -, htold, -⟩ := metrics_reconcile (fun _ => Site.agreeable)
    (fun _ => Site.vacant.assets) () [.call () ⟨0⟩ (Site.giving 0)]
  rw [htold (fun _ _ _ => rfl), Nat.add_zero] at hmint
  exact ⟨fun _ => rfl, hmint⟩

/-- Before a gateway without words a mint and a failure to acknowledge it are counted, but no
event is committed and no call returns. -/
theorem speechless_miscounts :
    let x := single Site.speechless (Site.giving 0)
    x.metrics.ledgerOperations.count .mint = 1 ∧ x.metrics.acknowledgementFailures = 1 ∧
      x.events = [] ∧ x.log.countP (fun e => e.outcome.isOk) = 0 := by
  intro x
  obtain ⟨q, hq⟩ := Site.exists_admission_bearing 0
  have hmetrics : x.metrics = (Metrics.zero.operated .mint).acknowledgementFailed.invoked
      .onAccept (.failed (Failure.argument .noText).outcome) := by
    rw [metrics_single, Site.giving]
    exact Site.metrics_of_fault hq Site.untold_speechless
  have hreturned : ((Site.vacant.call Site.speechless ⟨0⟩ (Site.giving 0)).1.isOk) = false :=
    congrArg Except.isOk Site.present_speechless
  rw [hmetrics, events_single, countP_single, hreturned]
  exact ⟨rfl, rfl, Site.committed_of_error Site.present_speechless, rfl⟩

end Fleet
end Interchain
