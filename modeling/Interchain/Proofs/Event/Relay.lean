/-
One relay.

`Relay.Follows` ties the step that a relay is at to the copy it goes through and to what the
broker took from it so far; every step keeps it, whatever the broker answers.  A relay that
nothing comes between ends as `EventBus.relay` does (`relay_undisturbed`).
-/
import Mathlib.Logic.Function.Iterate
import Interchain.Event.Relay

namespace Interchain

namespace Relay

variable {η : Type} {pending delivered left : List AssetEvent} {r : Relay}

def takes (answer : Option String) (r : Relay) : List AssetEvent :=
  match r.stage, answer with
  | .sent e _, none => [e]
  | .sent _ _, some _ | .answered _ _ _, _ | .ended _, _ => []

/-- A relay that started with the copy `pending` and has delivered `delivered`. -/
def Follows (pending delivered : List AssetEvent) (r : Relay) : Prop :=
  match r.stage with
  | .sent e rest | .answered e rest (.error _) =>
    pending = delivered ++ e :: rest ∧ r.published = delivered.length
  | .answered e rest (.ok ()) =>
    ∃ earlier, pending = earlier ++ e :: rest ∧ delivered = earlier ++ [e] ∧
      r.published = earlier.length
  | .ended (.ok n) => delivered = pending ∧ n = pending.length
  | .ended (.error _) => ∃ e rest, pending = delivered ++ e :: rest

@[simp] theorem turn_published (n : Nat) (b : EventBus η) (left : List AssetEvent) :
    (turn n b left).1.published = n := by
  cases left with
  | nil => rfl
  | cons e rest => rw [turn]; split <;> rfl

@[simp] theorem turn_inHand (n : Nat) (b : EventBus η) (left : List AssetEvent) :
    (turn n b left).1.inHand = [] := by
  cases left with
  | nil => rfl
  | cons e rest => rw [turn]; split <;> rfl

theorem inHand_of_hasEnded (h : r.hasEnded = true) : r.inHand = [] := by
  rcases r with ⟨n, _ | ⟨e, rest, f | _⟩ | _⟩
  · rfl
  · rfl
  · cases h
  · rfl

theorem stage_of_inHand (h : r.inHand ≠ []) :
    ∃ e rest, r.stage = .answered e rest (.ok ()) := by
  rcases r with ⟨n, _ | ⟨e, rest, f | _⟩ | _⟩
  · exact absurd rfl h
  · exact absurd rfl h
  · exact ⟨e, rest, rfl⟩
  · exact absurd rfl h

/-! ## What an answer and a resumption do to a relay -/

@[simp] theorem settle_published (answer : Option String) (r : Relay) :
    (r.settle answer).published = r.published := by
  rcases r with ⟨n, _ | _ | _⟩
  · cases answer <;> rfl
  · rfl
  · rfl

@[simp] theorem settle_hasEnded (answer : Option String) (r : Relay) :
    (r.settle answer).hasEnded = r.hasEnded := by
  rcases r with ⟨n, _ | _ | _⟩
  · cases answer <;> rfl
  · rfl
  · rfl

theorem settle_inHand (answer : Option String) (r : Relay) :
    (r.settle answer).inHand = r.inHand ++ r.takes answer := by
  rcases r with ⟨n, _ | ⟨e, rest, f | _⟩ | _⟩
  · cases answer <;> rfl
  · rfl
  · rfl
  · rfl

theorem takes_cases (answer : Option String) (r : Relay) :
    r.takes answer = [] ∨ ∃ e rest, r.stage = .sent e rest ∧ r.takes answer = [e] := by
  rcases r with ⟨n, ⟨e, rest⟩ | _ | _⟩
  · cases answer with
    | none => exact Or.inr ⟨e, rest, rfl, rfl⟩
    | some reason => exact Or.inl rfl
  · exact Or.inl rfl
  · exact Or.inl rfl

theorem resume_taken {e : AssetEvent} {rest : List AssetEvent}
    (h : r.stage = .answered e rest (.ok ())) (m : AssetModule) (b : EventBus η) :
    r.resume m b = ((turn (r.published + 1) b rest).1, m.discardEvents 1,
      (turn (r.published + 1) b rest).2) := by
  rw [resume, h]

/-- A relay with nothing in hand leaves the module and the bus alone when it goes on. -/
theorem resume_cases (r : Relay) (m : AssetModule) (b : EventBus η) :
    (∃ e rest, r.stage = .answered e rest (.ok ())) ∨
      ∃ r', r.resume m b = (r', m, b) ∧ r'.published = r.published ∧ r.inHand = [] ∧
        r'.inHand = [] ∧ (r.hasEnded = true → r'.hasEnded = true) := by
  rcases r with ⟨n, _ | ⟨e, rest, f | _⟩ | _⟩
  · exact Or.inr ⟨_, rfl, rfl, rfl, rfl, id⟩
  · exact Or.inr ⟨_, rfl, rfl, rfl, rfl, fun _ => rfl⟩
  · exact Or.inl ⟨e, rest, rfl⟩
  · exact Or.inr ⟨_, rfl, rfl, rfl, rfl, id⟩

/-! ## What a relay keeps -/

theorem follows_turn (h : pending = delivered ++ left) (b : EventBus η) :
    (turn delivered.length b left).1.Follows pending delivered := by
  cases left with
  | nil =>
    rw [List.append_nil] at h
    exact ⟨h.symm, by rw [h]⟩
  | cons e rest =>
    rw [turn]
    split <;> exact ⟨h, rfl⟩

theorem follows_start (m : AssetModule) (b : EventBus η) :
    (start m b).1.Follows m.outbox [] :=
  follows_turn (List.nil_append _).symm b

theorem Follows.of_sent {e : AssetEvent} {rest : List AssetEvent}
    (h : r.Follows pending delivered) (hstage : r.stage = .sent e rest) :
    pending = delivered ++ e :: rest ∧ r.published = delivered.length := by
  rwa [Follows, hstage] at h

theorem Follows.of_taken {e : AssetEvent} {rest : List AssetEvent}
    (h : r.Follows pending delivered) (hstage : r.stage = .answered e rest (.ok ())) :
    ∃ earlier, pending = earlier ++ e :: rest ∧ delivered = earlier ++ [e] ∧
      r.published = earlier.length := by
  rwa [Follows, hstage] at h

theorem Follows.settle (h : r.Follows pending delivered) (answer : Option String) :
    (r.settle answer).Follows pending (delivered ++ r.takes answer) := by
  rcases r with ⟨n, ⟨e, rest⟩ | ⟨e, rest, x⟩ | x⟩
  · obtain ⟨hpending, hpublished⟩ := h
    cases answer with
    | none => exact ⟨delivered, hpending, rfl, hpublished⟩
    | some reason =>
      simp only [takes, List.append_nil]
      exact ⟨hpending, hpublished⟩
  · simp only [takes, List.append_nil]
    exact h
  · simp only [takes, List.append_nil]
    exact h

theorem Follows.resume (h : r.Follows pending delivered) (m : AssetModule) (b : EventBus η) :
    (r.resume m b).1.Follows pending delivered := by
  rcases r with ⟨n, ⟨e, rest⟩ | ⟨e, rest, f | _⟩ | x⟩
  · exact h
  · exact ⟨e, rest, h.1⟩
  · obtain ⟨earlier, rfl, rfl, hpublished⟩ := h
    have hlength : n + 1 = (earlier ++ [e]).length := by
      rw [List.length_append, List.length_singleton]
      exact congrArg (· + 1) hpublished
    show (turn (n + 1) b rest).1.Follows _ _
    rw [hlength]
    exact follows_turn (by rw [List.append_assoc, List.singleton_append]) b
  · exact h

/-! ## A relay that nothing comes between -/

def nextAnswer (b : EventBus η) : Option String × EventBus η :=
  let (answer, broker) := b.broker.answer .publish
  (answer, { b with broker := broker })

theorem publish_eq (b : EventBus η) (e : WireEvent) :
    b.publish e =
      match b.send e with
      | .error f => (.error f, b)
      | .ok b =>
        match nextAnswer b with
        | (none, b) => (.ok (), b)
        | (some reason, b) => (.error (.raised reason), b) := by
  rw [EventBus.publish, EventBus.send]
  split
  · rw [EventBus.request]
    rcases hanswer : b.broker.answer .publish with ⟨_ | reason, broker⟩
    · simp only [nextAnswer, EventBus.logCalls, hanswer]
    · simp only [nextAnswer, EventBus.logCalls, hanswer]
  · rfl

/-- The relay goes past its next wait: the broker gives its next answer, and the relay goes on
with the module and the bus as it left them. -/
def advance : Relay × AssetModule × EventBus η → Relay × AssetModule × EventBus η
  | (r, m, b) =>
    match r.stage with
    | .sent _ _ =>
      let (answer, b) := nextAnswer b
      (r.settle answer).resume m b
    | .answered _ _ _ | .ended _ => r.resume m b

theorem iterate_advance_ended (k n : Nat) (x : Except Failure Nat) (m : AssetModule)
    (b : EventBus η) : advance^[k] (⟨n, .ended x⟩, m, b) = (⟨n, .ended x⟩, m, b) :=
  Function.iterate_fixed rfl k

theorem iterate_advance_turn (left : List AssetEvent) (n : Nat) (m : AssetModule)
    (b : EventBus η) :
    let s := advance^[left.length] ((turn n b left).1, m, (turn n b left).2)
    let t := EventBus.relayAll (left.map .ofEvent) (m.outbox.map .ofEvent) b
    s.1.stage = .ended (t.1.map (· + n)) ∧ s.2.1.outbox.map .ofEvent = t.2.1 ∧ s.2.2 = t.2.2 := by
  -- The count, the outbox and the bus are any: an event that was taken changes all three.
  induction left generalizing n m b with
  | nil => exact ⟨by simp [turn, EventBus.relayAll, Except.map], rfl, rfl⟩
  | cons e rest ih =>
    rw [List.length_cons, Function.iterate_succ_apply, List.map_cons, EventBus.relayAll,
      publish_eq, turn]
    cases hsend : b.send (.ofEvent e) with
    | error f =>
      dsimp only
      rw [show advance (⟨n, .answered e rest (.error f)⟩, m, b) = (⟨n, .ended (.error f)⟩, m, b)
        from rfl, iterate_advance_ended]
      exact ⟨rfl, rfl, rfl⟩
    | ok b₁ =>
      rcases hnext : nextAnswer b₁ with ⟨_ | reason, b₂⟩
      · have hstep : advance (⟨n, .sent e rest⟩, m, b₁) =
            ((turn (n + 1) b₂ rest).1, m.discardEvents 1, (turn (n + 1) b₂ rest).2) := by
          simp only [advance, hnext]
          rfl
        obtain ⟨hstage, houtbox, hbus⟩ := ih (n + 1) (m.discardEvents 1) b₂
        have hdrop : (m.discardEvents 1).outbox.map WireEvent.ofEvent =
            (m.outbox.map .ofEvent).drop 1 := List.map_drop
        rw [hdrop] at hstage houtbox hbus
        simp only [hnext, hstep]
        refine ⟨?_, houtbox, hbus⟩
        rw [hstage]
        cases (EventBus.relayAll (rest.map .ofEvent) ((m.outbox.map .ofEvent).drop 1) b₂).1 with
        | error f => rfl
        | ok k =>
          have hsum : k + (n + 1) = k + 1 + n := by omega
          exact congrArg (fun i => RelayStage.ended (.ok i)) hsum
      · have hstep : advance (⟨n, .sent e rest⟩, m, b₁) =
            (⟨n, .ended (.error (.raised reason))⟩, m, b₂) := by
          simp only [advance, hnext]
          rfl
        simp only [hnext, hstep, iterate_advance_ended]
        exact ⟨rfl, trivial, trivial⟩

/-- A relay that nothing comes between ends as `EventBus.relay` does, and leaves the same
events and the same bus. -/
theorem relay_undisturbed (m : AssetModule) (b : EventBus η) :
    let s := advance^[m.outbox.length] ((start m b).1, m, (start m b).2)
    let t := EventBus.relay (m.outbox.map .ofEvent) b
    s.1.stage = .ended t.1 ∧ s.2.1.outbox.map .ofEvent = t.2.1 ∧ s.2.2 = t.2.2 := by
  obtain ⟨hstage, houtbox, hbus⟩ := iterate_advance_turn m.outbox 0 m b
  refine ⟨hstage.trans ?_, houtbox, hbus⟩
  rw [EventBus.relay]
  cases (EventBus.relayAll (m.outbox.map .ofEvent) (m.outbox.map .ofEvent) b).1 with
  | error f => rfl
  | ok k => rfl

end Relay
end Interchain
