/-
Which handlers a message reaches.

A bus is connected, disconnected, subscribed to and unsubscribed from in any order, and each
request to the broker is granted or refused.  `Diary` keeps the calls with their outcomes beside
the bus.  The handlers of a type are those whose subscription found the bus connected since the
last call that unsubscribes from the type and the last disconnection that succeeded, whatever the
broker answered (`lasting`).  They are meant to be those whose subscription was granted since the
last such call that was granted (`granted`).  The two are the same as long as the broker refuses
no subscription and no unsubscription (`message_reaches`); a subscription that it refuses leaves
its handler behind (`Agrees.refused`).

`Diary.Agrees` is what every call keeps; it carries the induction on the calls.
-/
import Mathlib.Data.List.DropRight
import Interchain.Event.Bus
import Interchain.Proofs.Outcome

namespace Interchain

variable {η σ : Type}

/-! ## Calls -/

/-- What a user of a bus may call; a connection comes with what each client reports. -/
inductive BusCall (η : Type)
  | connect (publisher subscriber : Option String)
  | disconnect
  | subscribe (type : EventType) (handler : η)
  | unsubscribe (type : EventType)

def BusCall.perform (b : EventBus η) : BusCall η → Except Failure Unit × EventBus η
  | .connect publisher subscriber => b.connect publisher subscriber
  | .disconnect => b.disconnect
  | .subscribe t h => b.subscribe t h
  | .unsubscribe t => b.unsubscribe t

/-- A call that has ended: whether the bus was connected before it, and how it ended. -/
structure BusEntry (η : Type) where
  call : BusCall η
  wasConnected : Bool
  outcome : Except Failure Unit

namespace BusEntry

def hasSucceeded (x : BusEntry η) : Bool := x.outcome.isOk

def handler? (t : EventType) (x : BusEntry η) : Option η :=
  match x.call with
  | .subscribe t' h => if t' = t then some h else none
  | .connect _ _ | .disconnect | .unsubscribe _ => none

/-- The handler that the call gives to the bus. -/
def taken? (t : EventType) (x : BusEntry η) : Option η :=
  if x.wasConnected then x.handler? t else none

/-- The handler that the call was to give to the bus, if the call succeeded. -/
def granted? (t : EventType) (x : BusEntry η) : Option η :=
  if x.hasSucceeded then x.handler? t else none

def isEnd (t : EventType) (x : BusEntry η) : Bool :=
  match x.call with
  | .disconnect => true
  | .unsubscribe t' => t' = t
  | .connect _ _ | .subscribe _ _ => false

def clears (t : EventType) (x : BusEntry η) : Bool :=
  match x.call with
  | .disconnect => x.hasSucceeded
  | .unsubscribe t' => t' = t
  | .connect _ _ | .subscribe _ _ => false

def isRefused (t : EventType) (x : BusEntry η) : Bool :=
  match x.call with
  | .subscribe t' _ | .unsubscribe t' => t' = t && x.wasConnected && !x.hasSucceeded
  | .connect _ _ | .disconnect => false

end BusEntry

/-- The handlers whose subscription succeeded since the last call that ended the subscriptions
to the type and succeeded, in the order of their subscriptions. -/
def granted (t : EventType) (log : List (BusEntry η)) : List η :=
  (log.rtakeWhile (fun x => !(x.isEnd t && x.hasSucceeded))).filterMap (BusEntry.granted? t)

/-- The handlers whose subscription found the bus connected since the last disconnection that
succeeded and the last call at all that unsubscribed from the type. -/
def lasting (t : EventType) (log : List (BusEntry η)) : List η :=
  (log.rtakeWhile (fun x => !x.clears t)).filterMap (BusEntry.taken? t)

namespace BusEntry

/-- The call gives the bus the handler that it was granted, if any, and takes the handlers of the
type from the bus exactly if it succeeds in ending their subscriptions. -/
structure Keeps (t : EventType) (x : BusEntry η) : Prop where
  handler : x.granted? t = x.taken? t
  ending : (x.isEnd t && x.hasSucceeded) = x.clears t

end BusEntry

/-! ## Logs that grow -/

section

variable {t : EventType} {log : List (BusEntry η)}

theorem filterMap_rtakeWhile_concat {α β : Type} (p : α → Bool) (f : α → Option β) (xs : List α)
    (x : α) : ((xs ++ [x]).rtakeWhile (fun y => !p y)).filterMap f =
      if p x then [] else (xs.rtakeWhile (fun y => !p y)).filterMap f ++ (f x).toList := by
  rw [List.rtakeWhile_concat]
  cases p x with
  | true => rfl
  | false =>
    show List.filterMap f (_ ++ [x]) = _ ++ _
    rw [List.filterMap_append, List.filterMap_cons]
    cases f x <;> rfl

theorem lasting_concat (t : EventType) (log : List (BusEntry η)) (x : BusEntry η) :
    lasting t (log ++ [x]) = if x.clears t then [] else lasting t log ++ (x.taken? t).toList :=
  filterMap_rtakeWhile_concat _ _ log x

theorem granted_concat (t : EventType) (log : List (BusEntry η)) (x : BusEntry η) :
    granted t (log ++ [x]) =
      if x.isEnd t && x.hasSucceeded then [] else granted t log ++ (x.granted? t).toList :=
  filterMap_rtakeWhile_concat _ _ log x

theorem granted_eq_lasting (h : ∀ x ∈ log, x.Keeps t) : granted t log = lasting t log := by
  induction log using List.reverseRecOn with
  | nil => rfl
  | append_singleton log x ih =>
    have hx := h x (List.mem_append_right _ List.mem_cons_self)
    rw [granted_concat, lasting_concat, hx.ending, hx.handler,
      ih (fun y hy => h y (List.mem_append_left _ hy))]

end

/-- A bus with the calls made of it so far. -/
structure Diary (η : Type) where
  bus : EventBus η
  log : List (BusEntry η)

namespace Diary

def start (channelRoot : String) (broker : Broker) : Diary η :=
  ⟨{ EventBus.new channelRoot with broker := broker }, []⟩

def call (d : Diary η) (c : BusCall η) : Diary η :=
  ⟨(c.perform d.bus).2, d.log ++ [⟨c, d.bus.isConnected, (c.perform d.bus).1⟩]⟩

def run (d : Diary η) (calls : List (BusCall η)) : Diary η := calls.foldl call d

end Diary

/-! ## Handlers of a bus -/

namespace EventBus

variable {b b' : EventBus η} {t t' : EventType} {h : η}

def handlersOf (b : EventBus η) (t : EventType) : List η := (Table.get? t b.handlers).getD []

structure Alike (b b' : EventBus η) : Prop where
  handlers : b'.handlers = b.handlers
  isConnected : b'.isConnected = b.isConnected
  hasSubscriber : b'.hasSubscriber = b.hasSubscriber
  isListening : b'.isListening = b.isListening

structure Ready (b : EventBus η) : Prop where
  served : b.isConnected = true → b.hasSubscriber = true ∧ b.isListening = true
  idle : b.isConnected = false → ∀ t, b.handlersOf t = []

theorem Alike.trans {b'' : EventBus η} (h : Alike b b') (h' : Alike b' b'') : Alike b b'' :=
  ⟨h'.handlers.trans h.handlers, h'.isConnected.trans h.isConnected,
    h'.hasSubscriber.trans h.hasSubscriber, h'.isListening.trans h.isListening⟩

theorem Alike.handlersOf_eq (h : Alike b b') (t : EventType) :
    b'.handlersOf t = b.handlersOf t := by
  rw [handlersOf, h.handlers, handlersOf]

theorem Ready.alike (hb : b.Ready) (h : Alike b b') : b'.Ready := by
  constructor
  · rw [h.isConnected, h.hasSubscriber, h.isListening]
    exact hb.served
  · rw [h.isConnected]
    intro hconnected t
    rw [h.handlersOf_eq, hb.idle hconnected]

theorem alike_request (b : EventBus η) (role : BusRole) (m : BrokerMethod) (args : List String) :
    Alike b (b.request role m args).2 := by
  rw [request]
  rcases b.broker.answer m with ⟨_ | text, broker⟩
  · exact ⟨rfl, rfl, rfl, rfl⟩
  · exact ⟨rfl, rfl, rfl, rfl⟩

/-! ### Connections -/

theorem connect_handlersOf (b : EventBus η) (publisher subscriber : Option String) (t : EventType) :
    (b.connect publisher subscriber).2.handlersOf t = b.handlersOf t := by
  rw [connect]
  split
  · rfl
  · dsimp only
    split
    · rfl
    · rfl

theorem Ready.connect (hb : b.Ready) (publisher subscriber : Option String) :
    (b.connect publisher subscriber).2.Ready := by
  have hsame := b.connect_handlersOf publisher subscriber
  rw [EventBus.connect] at hsame ⊢
  split
  · exact hb
  · next hclosed =>
    have hidle := hb.idle (Bool.eq_false_iff.2 hclosed)
    rw [if_neg hclosed] at hsame
    dsimp only at hsame ⊢
    split
    · refine ⟨fun hopen => absurd hopen hclosed, fun _ t => hidle t⟩
    · exact ⟨fun _ => ⟨rfl, rfl⟩, fun hopen => nomatch hopen⟩

theorem quitPublisher_alike (b : EventBus η) : Alike b b.quitPublisher.2 := by
  have hasked := b.alike_request .publisher .quit []
  rw [quitPublisher]
  split
  · rcases hrequest : b.request .publisher .quit [] with ⟨f | _, b'⟩
    · rw [hrequest] at hasked
      exact hasked
    · rw [hrequest] at hasked
      exact ⟨hasked.handlers, hasked.isConnected, hasked.hasSubscriber, hasked.isListening⟩
  · exact ⟨rfl, rfl, rfl, rfl⟩

theorem quitSubscriber_cases (b : EventBus η) :
    (∃ b', b.quitSubscriber = (.ok (), b')) ∨
      ∃ f b', b.quitSubscriber = (.error f, b') ∧ Alike b b' := by
  have hasked := b.alike_request .subscriber .quit []
  rw [quitSubscriber]
  split
  · rcases hrequest : b.request .subscriber .quit [] with ⟨f | _, b'⟩
    · rw [hrequest] at hasked
      exact Or.inr ⟨f, b', rfl, hasked⟩
    · exact Or.inl ⟨_, rfl⟩
  · exact Or.inl ⟨b, rfl⟩

/-- A disconnection that succeeds leaves no handlers, and one that does not leaves all. -/
theorem disconnect_cases (b : EventBus η) :
    (b.isConnected = false ∧ b.disconnect = (.ok (), b)) ∨
    (∃ b', b.disconnect = (.ok (), b') ∧ b'.handlers = [] ∧ b'.isConnected = false) ∨
    ∃ f b', b.disconnect = (.error f, b') ∧ Alike b b' := by
  have hpublisher := b.quitPublisher_alike
  rw [disconnect]
  split
  · next hclosed => exact Or.inl ⟨by simpa using hclosed, rfl⟩
  rcases hquit : b.quitPublisher with ⟨f | _, b₁⟩
  · rw [hquit] at hpublisher
    exact Or.inr (Or.inr ⟨f, b₁, rfl, hpublisher⟩)
  rw [hquit] at hpublisher
  rcases b₁.quitSubscriber_cases with ⟨b₂, hquit'⟩ | ⟨f, b₂, hquit', hsubscriber⟩
  · exact Or.inr (Or.inl
      ⟨{ b₂ with handlers := [], isConnected := false }, by simp only [hquit'], rfl, rfl⟩)
  · exact Or.inr (Or.inr ⟨f, b₂, by simp only [hquit'], hpublisher.trans hsubscriber⟩)

theorem handlersOf_of_nil (h : b.handlers = []) (t : EventType) : b.handlersOf t = [] := by
  rw [handlersOf, h]
  rfl

theorem Ready.disconnect_handlersOf (hb : b.Ready) (t : EventType) :
    b.disconnect.2.handlersOf t = if b.disconnect.1.isOk then [] else b.handlersOf t := by
  rcases b.disconnect_cases with ⟨hclosed, h⟩ | ⟨b', h, hnil, -⟩ | ⟨f, b', h, hsame⟩
  · rw [h]
    exact hb.idle hclosed t
  · rw [h]
    exact handlersOf_of_nil hnil t
  · rw [h]
    exact hsame.handlersOf_eq t

theorem Ready.disconnect (hb : b.Ready) : b.disconnect.2.Ready := by
  rcases b.disconnect_cases with ⟨hclosed, h⟩ | ⟨b', h, hnil, hclosed⟩ | ⟨f, b', h, hsame⟩
  · rw [h]
    exact hb
  · rw [h]
    exact ⟨fun hopen => (nomatch hclosed.symm.trans hopen), fun _ => handlersOf_of_nil hnil⟩
  · rw [h]
    exact hb.alike hsame

/-! ### Subscriptions -/

theorem Ready.serves_iff (hb : b.Ready) :
    (b.hasSubscriber && b.isConnected) = true ↔ b.isConnected = true := by
  rw [Bool.and_eq_true]
  exact ⟨And.right, fun hopen => ⟨(hb.served hopen).1, hopen⟩⟩

/-- A bus that is connected takes the handler in, whatever the broker answers. -/
theorem Ready.subscribe_open (hb : b.Ready) (hopen : b.isConnected = true) (t : EventType) (h : η) :
    Alike { b with handlers := Table.put t (b.handlersOf t ++ [h]) b.handlers }
      (b.subscribe t h).2 := by
  rw [subscribe, if_pos (hb.serves_iff.2 hopen)]
  exact alike_request _ _ _ _

theorem Ready.subscribe_closed (hb : b.Ready) (hclosed : b.isConnected = false) (t : EventType)
    (h : η) : b.subscribe t h = (.error notConnected, b) := by
  have hnot : ¬ b.isConnected = true := Bool.eq_false_iff.1 hclosed
  rw [subscribe, if_neg (fun hserves => hnot (hb.serves_iff.1 hserves))]

/-- A bus that is connected drops all handlers of the type, whatever the broker answers. -/
theorem Ready.unsubscribe_open (hb : b.Ready) (hopen : b.isConnected = true) (t : EventType) :
    Alike { b with handlers := Table.erase t b.handlers } (b.unsubscribe t).2 := by
  rw [unsubscribe, if_pos (hb.serves_iff.2 hopen)]
  exact alike_request _ _ _ _

theorem Ready.unsubscribe_closed (hb : b.Ready) (hclosed : b.isConnected = false)
    (t : EventType) : b.unsubscribe t = (.ok (), b) := by
  have hnot : ¬ b.isConnected = true := Bool.eq_false_iff.1 hclosed
  rw [unsubscribe, if_neg (fun hserves => hnot (hb.serves_iff.1 hserves))]

theorem Ready.with_handlers (hb : b.Ready) (hopen : b.isConnected = true)
    (handlers : Table EventType (List η)) : Ready { b with handlers := handlers } :=
  ⟨hb.served, fun hclosed => (nomatch hclosed.symm.trans hopen)⟩

theorem handlersOf_put (b : EventBus η) (t : EventType) (hs : List η) (t' : EventType) :
    handlersOf { b with handlers := Table.put t hs b.handlers } t' =
      if t = t' then hs else b.handlersOf t' := by
  show (Table.get? t' (Table.put t hs b.handlers)).getD [] = _
  split
  · next heq =>
    rw [heq, Table.get?_put_self]
    rfl
  · next hne =>
    rw [Table.get?_put_of_ne (fun heq => hne heq.symm)]
    rfl

theorem handlersOf_erase (b : EventBus η) (t t' : EventType) :
    handlersOf { b with handlers := Table.erase t b.handlers } t' =
      if t = t' then [] else b.handlersOf t' := by
  show (Table.get? t' (Table.erase t b.handlers)).getD [] = _
  split
  · next heq =>
    have hnone : Table.get? t' (Table.erase t b.handlers) = none :=
      Table.get?_eq_none_iff.2 (fun hmem => (Table.mem_keys_erase.1 hmem).1 heq.symm)
    rw [hnone]
    rfl
  · next hne =>
    rw [Table.get?_erase_of_ne (fun heq => hne heq.symm)]
    rfl

end EventBus

/-! ## What a call does to the handlers -/

namespace BusCall

variable {b : EventBus η}

def entry (b : EventBus η) (c : BusCall η) : BusEntry η := ⟨c, b.isConnected, (c.perform b).1⟩

theorem ready_perform (hb : b.Ready) (c : BusCall η) : (c.perform b).2.Ready := by
  cases c with
  | connect publisher subscriber => exact hb.connect publisher subscriber
  | disconnect => exact hb.disconnect
  | subscribe t h =>
    cases hstatus : b.isConnected with
    | true => exact (hb.with_handlers hstatus _).alike (hb.subscribe_open hstatus t h)
    | false =>
      rw [perform, hb.subscribe_closed hstatus]
      exact hb
  | unsubscribe t =>
    cases hstatus : b.isConnected with
    | true => exact (hb.with_handlers hstatus _).alike (hb.unsubscribe_open hstatus t)
    | false =>
      rw [perform, hb.unsubscribe_closed hstatus]
      exact hb

/-- A call takes the handlers of a type from the bus, or gives one to it, or leaves them alone. -/
theorem handlersOf_perform (hb : b.Ready) (c : BusCall η) (t : EventType) :
    (c.perform b).2.handlersOf t =
      if (c.entry b).clears t then [] else b.handlersOf t ++ ((c.entry b).taken? t).toList := by
  cases c with
  | connect publisher subscriber =>
    have hnone : ((connect publisher subscriber).entry b).taken? t = none := ite_self _
    rw [hnone, Option.toList_none, List.append_nil]
    exact b.connect_handlersOf publisher subscriber t
  | disconnect =>
    have hnone : (disconnect.entry b).taken? t = none := ite_self _
    rw [hnone, Option.toList_none, List.append_nil]
    exact hb.disconnect_handlersOf t
  | subscribe t' h =>
    show (b.subscribe t' h).2.handlersOf t =
      b.handlersOf t ++ (if b.isConnected then if t' = t then some h else none else none).toList
    cases hstatus : b.isConnected with
    | true =>
      rw [(hb.subscribe_open hstatus t' h).handlersOf_eq, EventBus.handlersOf_put]
      split
      · next heq =>
        rw [heq]
        rfl
      · rw [if_pos rfl, Option.toList_none, List.append_nil]
    | false =>
      rw [hb.subscribe_closed hstatus, if_neg Bool.false_ne_true, Option.toList_none,
        List.append_nil]
  | unsubscribe t' =>
    have hnone : ((unsubscribe t').entry b).taken? t = none := ite_self _
    rw [hnone, Option.toList_none, List.append_nil]
    show (b.unsubscribe t').2.handlersOf t = if decide (t' = t) then [] else b.handlersOf t
    simp only [decide_eq_true_eq]
    cases hstatus : b.isConnected with
    | true => rw [(hb.unsubscribe_open hstatus t').handlersOf_eq, EventBus.handlersOf_erase]
    | false =>
      -- nothing is taken from a bus that is not connected, but there is nothing on it either
      rw [hb.unsubscribe_closed hstatus]
      split
      · exact hb.idle hstatus t
      · rfl

/-- Only what the broker refused comes apart from what was granted. -/
theorem keeps_entry (hb : b.Ready) (c : BusCall η) {t : EventType}
    (h : (c.entry b).isRefused t = false) : (c.entry b).Keeps t := by
  cases c with
  | connect publisher subscriber => exact ⟨(ite_self _).trans (ite_self _).symm, rfl⟩
  | disconnect => exact ⟨(ite_self _).trans (ite_self _).symm, Bool.true_and _⟩
  | subscribe t' f =>
    refine ⟨?_, rfl⟩
    have h : (decide (t' = t) && b.isConnected && !(b.subscribe t' f).1.isOk) = false := h
    show (if (b.subscribe t' f).1.isOk then if t' = t then some f else none else none) =
      if b.isConnected then if t' = t then some f else none else none
    by_cases heq : t' = t
    · cases hstatus : b.isConnected with
      | true =>
        rw [hstatus, decide_eq_true heq] at h
        have hok : (b.subscribe t' f).1.isOk = true := by simpa using h
        rw [hok]
      | false =>
        rw [hb.subscribe_closed hstatus]
        rfl
    · rw [if_neg heq, ite_self, ite_self]
  | unsubscribe t' =>
    refine ⟨(ite_self _).trans (ite_self _).symm, ?_⟩
    have h : (decide (t' = t) && b.isConnected && !(b.unsubscribe t').1.isOk) = false := h
    show (decide (t' = t) && (b.unsubscribe t').1.isOk) = decide (t' = t)
    cases hstatus : b.isConnected with
    | true =>
      rw [hstatus, Bool.and_true] at h
      revert h
      cases decide (t' = t) <;> cases (b.unsubscribe t').1.isOk <;> decide
    | false =>
      rw [hb.unsubscribe_closed hstatus]
      exact Bool.and_true _

end BusCall

/-! ## Diaries -/

namespace Diary

variable {d : Diary η} {t : EventType}

/-- The bus has the handlers that its log accounts for. -/
structure Agrees (d : Diary η) : Prop where
  ready : d.bus.Ready
  handlers : ∀ t, d.bus.handlersOf t = lasting t d.log
  keeps : ∀ x ∈ d.log, ∀ t, x.isRefused t = false → x.Keeps t

theorem agrees_start (channelRoot : String) (broker : Broker) :
    (start (η := η) channelRoot broker).Agrees where
  ready := ⟨fun h => (nomatch h), fun _ _ => rfl⟩
  handlers _ := rfl
  keeps := List.forall_mem_nil _

theorem Agrees.call (h : d.Agrees) (c : BusCall η) : (d.call c).Agrees where
  ready := c.ready_perform h.ready
  handlers t := by
    show (c.perform d.bus).2.handlersOf t = lasting t (d.log ++ [c.entry d.bus])
    rw [BusCall.handlersOf_perform h.ready, lasting_concat, h.handlers]
  keeps := by
    refine List.forall_mem_append.2 ⟨h.keeps, List.forall_mem_singleton.2 (fun t ht => ?_)⟩
    exact BusCall.keeps_entry h.ready c ht

theorem Agrees.run (h : d.Agrees) (calls : List (BusCall η)) : (d.run calls).Agrees := by
  induction calls generalizing d with
  | nil => exact h
  | cons c calls ih => exact ih (h.call c)

end Diary

/-! ## Messages -/

namespace EventBus

variable {b : EventBus η}

/-- Every handler has its turn, however the others end. -/
theorem handleAll_reached (act : η → RelayedEvent → σ → Except Failure Unit × σ)
    (hs : List (η × RelayedEvent)) (w : σ) :
    (handleAll act hs w).1.map (fun i => (i.handler, i.event)) = hs := by
  induction hs generalizing w with
  | nil => rfl
  | cons head rest ih =>
    obtain ⟨h, e⟩ := head
    rw [handleAll]
    rcases act h e w with ⟨outcome, w'⟩
    show (h, e) :: _ = _
    rw [ih w']

theorem dispatch_error {message : String} {f : RelayedEvent.Fault}
    (h : RelayedEvent.parse message = .error f) : b.dispatch message = [] := by
  rw [dispatch, h]

theorem dispatch_ok {message : String} {e : RelayedEvent}
    (h : RelayedEvent.parse message = .ok e) :
    b.dispatch message = (b.handlersOf e.type).map (fun f => (f, e)) := by
  rw [dispatch, h]
  rfl

theorem Ready.received (hb : b.Ready) (message : String) :
    (b.receive? message).getD [] = b.dispatch message := by
  rw [receive?]
  split
  · rfl
  · next hdeaf =>
    have hclosed : b.isConnected = false :=
      Bool.eq_false_iff.2 (fun hopen => hdeaf (hb.served hopen).2)
    cases hparse : RelayedEvent.parse message with
    | error f => exact (dispatch_error hparse).symm
    | ok e => rw [dispatch_ok hparse, hb.idle hclosed]; rfl

end EventBus

namespace Diary

variable {d : Diary η} {t : EventType}

/-- A message that cannot be read reaches no handler.  Any other reaches exactly the handlers of
its type whose subscription found the bus connected since the last disconnection that succeeded
and the last call that unsubscribed from the type, each once for each subscription and in their
order, however they end.  As long as the broker refused no subscription to the type and no
unsubscription from it, these are the handlers whose subscription succeeded since the last such
call that succeeded. -/
theorem message_reaches (channelRoot : String) (broker : Broker) (calls : List (BusCall η))
    (act : η → RelayedEvent → σ → Except Failure Unit × σ) (message : String) (w : σ) :
    let d := (start channelRoot broker).run calls
    let reached := (d.bus.handle act message w).1.map (fun i => (i.handler, i.event))
    reached = (d.bus.receive? message).getD [] ∧
    (∀ f, RelayedEvent.parse message = .error f → reached = []) ∧
    ∀ e, RelayedEvent.parse message = .ok e →
      reached = (lasting e.type d.log).map (fun h => (h, e)) ∧
      ((∀ x ∈ d.log, x.isRefused e.type = false) →
        reached = (granted e.type d.log).map (fun h => (h, e))) := by
  intro d reached
  have hagrees : d.Agrees := (agrees_start channelRoot broker).run calls
  have hreached : reached = d.bus.dispatch message := EventBus.handleAll_reached act _ w
  refine ⟨hreached.trans (hagrees.ready.received message).symm, fun f hf => ?_, fun e he => ?_⟩
  · exact hreached.trans (EventBus.dispatch_error hf)
  · have hlasting : reached = (lasting e.type d.log).map (fun h => (h, e)) := by
      rw [hreached, EventBus.dispatch_ok he, hagrees.handlers]
    refine ⟨hlasting, fun hrefused => ?_⟩
    have hkeeps := granted_eq_lasting (fun x hx => hagrees.keeps x hx e.type (hrefused x hx))
    rw [hlasting, hkeeps]

/-- A subscription that the broker refuses is not granted, and leaves its handler behind. -/
theorem Agrees.refused (h : d.Agrees) {f : η} (hopen : d.bus.isConnected = true)
    (hrefused : (d.bus.subscribe t f).1.isOk = false) :
    (d.call (.subscribe t f)).bus.handlersOf t = d.bus.handlersOf t ++ [f] ∧
      granted t (d.call (.subscribe t f)).log = granted t d.log := by
  constructor
  · show (BusCall.perform d.bus (.subscribe t f)).2.handlersOf t = _
    rw [BusCall.handlersOf_perform h.ready]
    show d.bus.handlersOf t ++ Option.toList (if d.bus.isConnected then _ else none) = _
    rw [if_pos hopen, BusEntry.handler?]
    show _ ++ (if t = t then some f else none).toList = _
    rw [if_pos rfl]
    rfl
  · show granted t (d.log ++ [BusCall.entry d.bus (.subscribe t f)]) = _
    rw [granted_concat]
    show granted t d.log ++ Option.toList (if (d.bus.subscribe t f).1.isOk then _ else none) = _
    rw [hrefused]
    exact List.append_nil _

def querySent : String :=
  (WireEvent.ofEvent ⟨"POLY", ⟨0⟩, .getDispatched "BSC" ["0x01"] 5⟩).serialize

theorem parse_querySent :
    ∃ e, RelayedEvent.parse querySent = .ok e ∧ e.type = .getDispatched := by
  have htype : (RelayedEvent.parse querySent).toOption.map (·.type) = some .getDispatched := by
    decide +kernel
  obtain ⟨e, he, ht⟩ := Option.map_eq_some_iff.1 htype
  exact ⟨e, toOption_eq_some.1 he, ht⟩

/-- Handlers that reject, one of them subscribed twice and one before the last unsubscription. -/
theorem message_reaches_rejecting :
    let calls : List (BusCall String) :=
      [.connect none none, .subscribe .getDispatched "a", .unsubscribe .getDispatched,
        .subscribe .getDispatched "b", .subscribe .balanceBurnt "c", .subscribe .getDispatched "b"]
    let d := (start "assets" .agreeing).run calls
    let act : String → RelayedEvent → Nat → Except Failure Unit × Nat :=
      fun _ _ n => (.error (.raised "no"), n + 1)
    (∀ x ∈ d.log, x.isRefused .getDispatched = false) ∧
      (d.bus.handle act querySent 0).1.map (fun i => i.handler) = ["b", "b"] := by
  intro calls d act
  have hrefused : ∀ x ∈ d.log, x.isRefused .getDispatched = false := by decide +kernel
  have hgranted : granted .getDispatched d.log = ["b", "b"] := by decide +kernel
  obtain ⟨e, he, ht⟩ := parse_querySent
  obtain ⟨-, -, hreads⟩ := message_reaches "assets" .agreeing calls act querySent 0
  have hreached := (hreads e he).2 (ht ▸ hrefused)
  refine ⟨hrefused, ?_⟩
  have hhandlers := congrArg (List.map Prod.fst) hreached
  rw [List.map_map, List.map_map, ht, hgranted] at hhandlers
  exact hhandlers

/-- A handler whose subscription was refused is reached all the same. -/
theorem refused_handler_reached :
    let broker := Broker.agreeing.script .subscribe [none, some "Redis down"]
    let d := (start "assets" broker).run
      [.connect none none, .subscribe .getDispatched "a", .subscribe .getDispatched "b"]
    granted .getDispatched d.log = ["a"] ∧
      (d.bus.dispatch querySent).map Prod.fst = ["a", "b"] := by
  decide +kernel

end Diary
end Interchain
