/-
What a bus that says that it is connected can do.

A disconnection ends the publishing client, then the subscribing client, and only then does the
bus give its handlers away and say that it is not connected.  So a bus is in one of three phases:
closed, whole, or torn, which is where a disconnection leaves it whose subscribing client would
not end (`Phase`).  A torn bus says that it is connected and takes subscriptions, but it has no
client to publish with, and connecting it does nothing.

Every call leaves a bus in one of the phases (`Phase.perform`), and a bus gets torn only by a
disconnection that fails.  Which of the two phases a connected bus is in can be told from the
requests that its clients were sent (`IsLeaving`).
-/
import Interchain.Proofs.Event.Subscription

namespace Interchain

variable {η : Type}

def BusEntry.isStuck (x : BusEntry η) : Bool :=
  match x.call with
  | .disconnect => !x.hasSucceeded
  | .connect _ _ | .subscribe _ _ | .unsubscribe _ => false

namespace EventBus

variable {b : EventBus η}

/-- The subscribing client was asked to end since it was created. -/
def IsLeaving (b : EventBus η) : Prop :=
  .request .subscriber .quit [] ∈ b.calls.rtakeWhile (fun c => c ≠ .created .subscriber)

instance : DecidablePred (IsLeaving (η := η)) := fun _ => inferInstanceAs (Decidable (_ ∈ _))

/-! ## Phases -/

structure Closed (b : EventBus η) : Prop where
  isConnected : b.isConnected = false
  hasPublisher : b.hasPublisher = false
  hasSubscriber : b.hasSubscriber = false
  handlers : b.handlers = []

structure Whole (b : EventBus η) : Prop where
  isConnected : b.isConnected = true
  hasPublisher : b.hasPublisher = true
  hasSubscriber : b.hasSubscriber = true
  staying : ¬ b.IsLeaving

/-- The subscribing client alone, which was asked to end and is still there. -/
structure Torn (b : EventBus η) : Prop where
  isConnected : b.isConnected = true
  hasPublisher : b.hasPublisher = false
  hasSubscriber : b.hasSubscriber = true
  leaving : b.IsLeaving

/-- The phases of a bus, the last of which takes a disconnection that failed. -/
inductive Phase (b : EventBus η) (hasFailed : Prop) : Prop
  | closed (h : b.Closed)
  | whole (h : b.Whole)
  | torn (hfailed : hasFailed) (h : b.Torn)

theorem Phase.mono {p q : Prop} (h : b.Phase p) (hpq : p → q) : b.Phase q := by
  cases h with
  | closed h => exact .closed h
  | whole h => exact .whole h
  | torn hfailed h => exact .torn (hpq hfailed) h

/-! ## Requests -/

theorem request_snd (b : EventBus η) (role : BusRole) (m : BrokerMethod) (args : List String) :
    (b.request role m args).2 = { b with
      broker := (b.broker.answer m).2
      calls := b.calls ++ [.request role m args] } := by
  rw [request]
  rcases b.broker.answer m with ⟨_ | text, broker⟩
  · rfl
  · rfl

theorem isLeaving_request {role : BusRole} {m : BrokerMethod} {args : List String} :
    (b.request role m args).2.IsLeaving ↔
      b.IsLeaving ∨ ClientCall.request .subscriber .quit [] = .request role m args := by
  rw [IsLeaving, request_snd, List.rtakeWhile_concat, if_pos (decide_eq_true nofun),
    List.mem_append, List.mem_singleton]
  rfl

theorem Whole.request (h : b.Whole) {role : BusRole} {m : BrokerMethod} {args : List String}
    (hstay : ClientCall.request .subscriber .quit [] ≠ .request role m args) :
    (b.request role m args).2.Whole where
  isConnected := by rw [request_snd]; exact h.isConnected
  hasPublisher := by rw [request_snd]; exact h.hasPublisher
  hasSubscriber := by rw [request_snd]; exact h.hasSubscriber
  staying := by rw [isLeaving_request]; exact not_or.2 ⟨h.staying, hstay⟩

theorem Torn.request (h : b.Torn) (role : BusRole) (m : BrokerMethod) (args : List String) :
    (b.request role m args).2.Torn where
  isConnected := by rw [request_snd]; exact h.isConnected
  hasPublisher := by rw [request_snd]; exact h.hasPublisher
  hasSubscriber := by rw [request_snd]; exact h.hasSubscriber
  leaving := isLeaving_request.2 (Or.inl h.leaving)

/-! ## Subscriptions -/

section

variable {t : EventType} {f : η}

theorem subscribe_of_connected (hopen : b.isConnected = true) (hclient : b.hasSubscriber = true) :
    b.subscribe t f = EventBus.request
      { b with handlers := Table.put t (b.handlersOf t ++ [f]) b.handlers }
      .subscriber .subscribe [b.channel t] := by
  rw [subscribe, hopen, hclient, if_pos (by decide)]
  rfl

theorem unsubscribe_of_connected (hopen : b.isConnected = true)
    (hclient : b.hasSubscriber = true) :
    b.unsubscribe t = EventBus.request { b with handlers := Table.erase t b.handlers }
      .subscriber .unsubscribe [b.channel t] := by
  rw [unsubscribe, hopen, hclient, if_pos (by decide)]

theorem Whole.with_handlers (h : b.Whole) (handlers : Table EventType (List η)) :
    Whole { b with handlers := handlers } :=
  ⟨h.isConnected, h.hasPublisher, h.hasSubscriber, h.staying⟩

theorem Torn.with_handlers (h : b.Torn) (handlers : Table EventType (List η)) :
    Torn { b with handlers := handlers } :=
  ⟨h.isConnected, h.hasPublisher, h.hasSubscriber, h.leaving⟩

end

/-! ## Connections -/

theorem connect_of_connected (hopen : b.isConnected = true) (publisher subscriber : Option String) :
    b.connect publisher subscriber = (.ok (), b) :=
  if_pos hopen

/-- A connection that fails leaves the bus closed, and one that succeeds makes it whole. -/
theorem Closed.connect (h : b.Closed) (publisher subscriber : Option String) :
    (b.connect publisher subscriber).2.Closed ∨ (b.connect publisher subscriber).2.Whole := by
  have hclosed : ¬ b.isConnected = true := Bool.eq_false_iff.1 h.isConnected
  rw [EventBus.connect, if_neg hclosed]
  cases publisher.or subscriber with
  | some text => exact Or.inl ⟨h.isConnected, rfl, rfl, h.handlers⟩
  | none =>
    right
    refine ⟨rfl, rfl, rfl, ?_⟩
    -- no call has been made of the new client
    show _ ∉ (b.calls ++ ([ClientCall.created .publisher] ++
      [ClientCall.created .subscriber])).rtakeWhile _
    rw [← List.append_assoc, List.rtakeWhile_concat, if_neg (by decide)]
    exact List.not_mem_nil

/-! ## Disconnections -/

inductive Ended (r : Except Failure Unit × EventBus η) : Prop
  | closed (hok : r.1.isOk = true) (h : r.2.Closed)
  | torn (hstuck : r.1.isOk = false) (h : r.2.Torn)
  | whole (hstuck : r.1.isOk = false) (h : r.2.Whole)

theorem Whole.quitPublisher (h : b.Whole) :
    (∃ f b', b.quitPublisher = (.error f, b') ∧ b'.Whole) ∨
      ∃ b', b.quitPublisher = (.ok (), b') ∧ b'.isConnected = true ∧ b'.hasPublisher = false ∧
        b'.hasSubscriber = true := by
  have hasked : (b.request .publisher .quit []).2.Whole := h.request nofun
  rw [EventBus.quitPublisher, if_pos h.hasPublisher]
  rcases hrequest : b.request .publisher .quit [] with ⟨f | _, b'⟩
  · rw [hrequest] at hasked
    exact Or.inl ⟨f, b', rfl, hasked⟩
  · rw [hrequest] at hasked
    exact Or.inr ⟨_, rfl, hasked.isConnected, rfl, hasked.hasSubscriber⟩

theorem quitSubscriber_of_gone (hopen : b.isConnected = true) (hgone : b.hasPublisher = false)
    (hclient : b.hasSubscriber = true) :
    (∃ f b', b.quitSubscriber = (.error f, b') ∧ b'.Torn) ∨
      ∃ b', b.quitSubscriber = (.ok (), b') ∧ b'.hasPublisher = false ∧
        b'.hasSubscriber = false := by
  have hasked : (b.request .subscriber .quit []).2.Torn := by
    refine ⟨?_, ?_, ?_, isLeaving_request.2 (Or.inr rfl)⟩
    · rw [request_snd]; exact hopen
    · rw [request_snd]; exact hgone
    · rw [request_snd]; exact hclient
  rw [quitSubscriber, if_pos hclient]
  rcases hrequest : b.request .subscriber .quit [] with ⟨f | _, b'⟩
  · rw [hrequest] at hasked
    exact Or.inl ⟨f, b', rfl, hasked⟩
  · rw [hrequest] at hasked
    exact Or.inr ⟨_, rfl, hasked.hasPublisher, rfl⟩

theorem ended_of_gone {b₁ : EventBus η} (hopen : b.isConnected = true)
    (hquit : b.quitPublisher = (.ok (), b₁)) (hopen₁ : b₁.isConnected = true)
    (hgone : b₁.hasPublisher = false) (hclient : b₁.hasSubscriber = true) :
    Ended b.disconnect := by
  rw [disconnect, hopen, if_neg (by decide), hquit]
  rcases quitSubscriber_of_gone hopen₁ hgone hclient with
    ⟨f, b₂, hquit', htorn⟩ | ⟨b₂, hquit', hpublisher, hsubscriber⟩
  · simp only [hquit']
    exact .torn rfl htorn
  · simp only [hquit']
    exact .closed rfl ⟨rfl, hpublisher, hsubscriber, rfl⟩

theorem Whole.ended (h : b.Whole) : Ended b.disconnect := by
  rcases h.quitPublisher with ⟨f, b₁, hquit, hwhole⟩ | ⟨b₁, hquit, hopen, hgone, hclient⟩
  · rw [disconnect, h.isConnected, if_neg (by decide), hquit]
    exact .whole rfl hwhole
  · exact ended_of_gone h.isConnected hquit hopen hgone hclient

theorem Torn.ended (h : b.Torn) : Ended b.disconnect := by
  have hquit : b.quitPublisher = (.ok (), b) := by
    rw [quitPublisher, h.hasPublisher]
    rfl
  exact ended_of_gone h.isConnected hquit h.isConnected h.hasPublisher h.hasSubscriber

theorem Closed.disconnect (h : b.Closed) : b.disconnect = (.ok (), b) := by
  rw [EventBus.disconnect, h.isConnected]
  rfl

theorem Ended.phase {r : Except Failure Unit × EventBus η} (h : Ended r) :
    r.2.Phase (r.1.isOk = false) := by
  cases h with
  | closed _ h => exact .closed h
  | torn hstuck h => exact .torn hstuck h
  | whole _ h => exact .whole h

theorem Ended.closed_of_ok {r : Except Failure Unit × EventBus η} (h : Ended r)
    (hok : r.1.isOk = true) : r.2.isConnected = false := by
  cases h with
  | closed _ h => exact h.isConnected
  | torn hstuck _ | whole hstuck _ => exact absurd hok (Bool.eq_false_iff.1 hstuck)

/-! ## Calls -/

variable {p : Prop}

theorem Closed.perform (h : b.Closed) (c : BusCall η) : (c.perform b).2.Phase p := by
  cases c with
  | connect publisher subscriber =>
    rcases h.connect publisher subscriber with h | h
    · exact .closed h
    · exact .whole h
  | disconnect =>
    show b.disconnect.2.Phase p
    rw [h.disconnect]
    exact .closed h
  | subscribe t f =>
    show (b.subscribe t f).2.Phase p
    rw [subscribe, h.isConnected, Bool.and_false, if_neg Bool.false_ne_true]
    exact .closed h
  | unsubscribe t =>
    show (b.unsubscribe t).2.Phase p
    rw [unsubscribe, h.isConnected, Bool.and_false, if_neg Bool.false_ne_true]
    exact .closed h

theorem Whole.perform (h : b.Whole) (c : BusCall η) :
    (c.perform b).2.Phase ((c.entry b).isStuck = true) := by
  cases c with
  | connect publisher subscriber =>
    show (b.connect publisher subscriber).2.Phase _
    rw [connect_of_connected h.isConnected]
    exact .whole h
  | disconnect => exact h.ended.phase.mono (fun hstuck => congrArg not hstuck)
  | subscribe t f =>
    show (b.subscribe t f).2.Phase _
    rw [subscribe_of_connected h.isConnected h.hasSubscriber]
    exact .whole ((h.with_handlers _).request nofun)
  | unsubscribe t =>
    show (b.unsubscribe t).2.Phase _
    rw [unsubscribe_of_connected h.isConnected h.hasSubscriber]
    exact .whole ((h.with_handlers _).request nofun)

theorem Torn.perform (h : b.Torn) (hp : p) (c : BusCall η) : (c.perform b).2.Phase p := by
  cases c with
  | connect publisher subscriber =>
    show (b.connect publisher subscriber).2.Phase p
    rw [connect_of_connected h.isConnected]
    exact .torn hp h
  | disconnect => exact h.ended.phase.mono (fun _ => hp)
  | subscribe t f =>
    show (b.subscribe t f).2.Phase p
    rw [subscribe_of_connected h.isConnected h.hasSubscriber]
    exact .torn hp ((h.with_handlers _).request _ _ _)
  | unsubscribe t =>
    show (b.unsubscribe t).2.Phase p
    rw [unsubscribe_of_connected h.isConnected h.hasSubscriber]
    exact .torn hp ((h.with_handlers _).request _ _ _)

theorem Phase.perform (h : b.Phase p) (c : BusCall η) :
    (c.perform b).2.Phase (p ∨ (c.entry b).isStuck = true) := by
  cases h with
  | closed h => exact h.perform c
  | whole h => exact (h.perform c).mono Or.inr
  | torn hp h => exact h.perform (Or.inl hp) c

/-! ## Publishing -/

theorem Whole.publish (h : b.Whole) (e : WireEvent) :
    b.publish e = b.request .publisher .publish [b.channel e.type, e.serialize] := by
  rw [EventBus.publish, h.hasPublisher, h.isConnected, if_pos (by decide)]

theorem publish_of_gone (h : b.hasPublisher = false) (e : WireEvent) :
    b.publish e = (.error notConnected, b) := by
  rw [publish, h, Bool.false_and, if_neg Bool.false_ne_true]

end EventBus

namespace Diary

variable {d : Diary η}

theorem phase_start (channelRoot : String) (broker : Broker) :
    (start (η := η) channelRoot broker).bus.Phase False :=
  .closed ⟨rfl, rfl, rfl, rfl⟩

theorem phase_run (h : d.bus.Phase (∃ x ∈ d.log, x.isStuck = true)) (calls : List (BusCall η)) :
    (d.run calls).bus.Phase (∃ x ∈ (d.run calls).log, x.isStuck = true) := by
  induction calls generalizing d with
  | nil => exact h
  | cons c calls ih =>
    refine ih ((h.perform c).mono ?_)
    rintro (⟨x, hx, hstuck⟩ | hstuck)
    · exact ⟨x, List.mem_append_left _ hx, hstuck⟩
    · exact ⟨_, List.mem_append_right _ List.mem_cons_self, hstuck⟩

/-- Whatever was called and however the clients and the broker answered: a bus that is not connected
has neither client and no handlers.  A bus that is connected has its subscribing client and asks
the broker for each subscription.  It has its publishing client, and asks the broker to publish,
unless its subscribing client has been asked to end, which takes a disconnection that failed.  In
that case it publishes nothing, and connecting it changes nothing.  A disconnection that succeeds
leaves the bus not connected. -/
theorem connected_usable (channelRoot : String) (broker : Broker) (calls : List (BusCall η)) :
    let d := (start channelRoot broker).run calls
    let b := d.bus
    (b.isConnected = false →
      b.hasPublisher = false ∧ b.hasSubscriber = false ∧ b.handlers = []) ∧
    (b.isConnected = true →
      b.hasSubscriber = true ∧ (b.hasPublisher = true ↔ ¬ b.IsLeaving) ∧
      (∀ t f, b.subscribe t f = EventBus.request
        { b with handlers := Table.put t (b.handlersOf t ++ [f]) b.handlers }
        .subscriber .subscribe [b.channel t]) ∧
      (¬ b.IsLeaving → ∀ e,
        b.publish e = b.request .publisher .publish [b.channel e.type, e.serialize]) ∧
      (b.IsLeaving →
        (∀ e, b.publish e = (.error EventBus.notConnected, b)) ∧
        (∀ publisher subscriber, b.connect publisher subscriber = (.ok (), b)) ∧
        ∃ x ∈ d.log, x.isStuck = true)) ∧
    (b.disconnect.1.isOk = true → b.disconnect.2.isConnected = false) := by
  intro d b
  have hphase : b.Phase (∃ x ∈ d.log, x.isStuck = true) :=
    phase_run ((phase_start channelRoot broker).mono False.elim) calls
  cases hphase with
  | closed h =>
    refine ⟨fun _ => ⟨h.hasPublisher, h.hasSubscriber, h.handlers⟩,
      fun hopen => absurd hopen (Bool.eq_false_iff.1 h.isConnected), fun _ => ?_⟩
    rw [h.disconnect]
    exact h.isConnected
  | whole h =>
    refine ⟨fun hclosed => absurd h.isConnected (Bool.eq_false_iff.1 hclosed),
      fun _ => ⟨h.hasSubscriber, iff_of_true h.hasPublisher h.staying,
        fun t f => EventBus.subscribe_of_connected h.isConnected h.hasSubscriber,
        fun _ => h.publish, fun hleaving => absurd hleaving h.staying⟩, h.ended.closed_of_ok⟩
  | torn hfailed h =>
    refine ⟨fun hclosed => absurd h.isConnected (Bool.eq_false_iff.1 hclosed),
      fun _ => ⟨h.hasSubscriber,
        iff_of_false (Bool.eq_false_iff.1 h.hasPublisher) (not_not_intro h.leaving),
        fun t f => EventBus.subscribe_of_connected h.isConnected h.hasSubscriber,
        fun hstaying => absurd h.leaving hstaying,
        fun _ => ⟨EventBus.publish_of_gone h.hasPublisher,
          EventBus.connect_of_connected h.isConnected, hfailed⟩⟩, h.ended.closed_of_ok⟩

/-- A bus whose first disconnection and whose second connection failed. -/
theorem connected_usable_retried :
    let broker := Broker.agreeing.script .quit [some "Redis down"]
    let b := ((start (η := String) "ismp-assets" broker).run
      [.connect none none, .disconnect, .disconnect, .connect none (some "no"),
        .connect none none]).bus
    b.isConnected = true ∧ ¬ b.IsLeaving ∧
      ∀ e, b.publish e = b.request .publisher .publish [b.channel e.type, e.serialize] := by
  intro broker b
  have hopen : b.isConnected = true := by decide +kernel
  have hstaying : ¬ b.IsLeaving := by decide +kernel
  obtain ⟨-, hconnected, -⟩ := connected_usable "ismp-assets" broker
    (η := String) [.connect none none, .disconnect, .disconnect, .connect none (some "no"),
      .connect none none]
  obtain ⟨-, -, -, hpublish, -⟩ := hconnected hopen
  exact ⟨hopen, hstaying, hpublish hstaying⟩

/-- A bus whose subscribing client would not end says that it is connected, also after it was
connected once more, but does not publish. -/
theorem torn_bus_connected :
    let broker := Broker.agreeing.script .quit [none, some "Redis down"]
    let b := ((start (η := String) "ismp-assets" broker).run
      [.connect none none, .disconnect, .connect none none]).bus
    b.isConnected = true ∧ b.hasPublisher = false ∧
      ∀ e, b.publish e = (.error EventBus.notConnected, b) := by
  intro broker b
  have hgone : b.hasPublisher = false := by decide +kernel
  exact ⟨by decide +kernel, hgone, EventBus.publish_of_gone hgone⟩

end Diary
end Interchain
