/-
Relays one at a time.

As long as no two relays are under way at once, a relay is always at the oldest event of the
outbox (`InStep.abreast`), whatever is committed and whatever the broker answers meanwhile.
So it drops the very event that it published, and all events are delivered in the order in
which they were committed, each of them once (`exactly_once`).
-/
import Interchain.Proofs.Event.Overlap

namespace Interchain

variable {σ η : Type}

namespace Traffic

variable {g : Gateway σ} {w w' : Traffic σ η} {earlier later : List Trail} {t : Trail}

/-- Every relay that has not ended is at the oldest event of the outbox. -/
structure InStep (w : Traffic σ η) : Prop where
  delivered_eq : w.delivered = w.removed ++ w.inHand
  dropped : ∀ t ∈ w.trails, t.delivered = t.removed ++ t.relay.inHand
  abreast : ∀ t ∈ w.trails, t.relay.hasEnded = false → t.place = w.removed.length

theorem flatMap_inHand_of_ended {ts : List Trail} (h : ∀ t ∈ ts, t.relay.hasEnded = true) :
    ts.flatMap (·.relay.inHand) = [] :=
  List.flatMap_eq_nil_iff.2 (fun t ht => Relay.inHand_of_hasEnded (h t ht))

/-- While one relay is under way all others have ended. -/
theorem ended_of_alone (hw : w.underWay.length ≤ 1) (htrails : w.trails = earlier ++ t :: later)
    (ht : t.relay.hasEnded = false) :
    (∀ s ∈ earlier, s.relay.hasEnded = true) ∧ ∀ s ∈ later, s.relay.hasEnded = true := by
  rw [underWay, htrails, List.filter_append, List.filter_cons_of_pos (by rw [ht]; rfl),
    List.length_append, List.length_cons] at hw
  have hnone (ts : List Trail) (hts : (ts.filter (fun s => !s.relay.hasEnded)).length = 0) :
      ∀ s ∈ ts, s.relay.hasEnded = true := by
    intro s hs
    simpa using List.filter_eq_nil_iff.1 (List.eq_nil_of_length_eq_zero hts) s hs
  exact ⟨hnone earlier (by omega), hnone later (by omega)⟩

theorem flatMap_inHand_alone (hearlier : ∀ s ∈ earlier, s.relay.hasEnded = true)
    (hlater : ∀ s ∈ later, s.relay.hasEnded = true) (t : Trail) :
    (earlier ++ t :: later).flatMap (·.relay.inHand) = t.relay.inHand := by
  rw [List.flatMap_append, List.flatMap_cons, flatMap_inHand_of_ended hearlier,
    flatMap_inHand_of_ended hlater, List.nil_append, List.append_nil]

theorem InStep.outbox_of_taken (h : w.InStep) (hsound : w.Sound)
    (htrails : w.trails = earlier ++ t :: later) {e : AssetEvent} {rest : List AssetEvent}
    (hstage : t.relay.stage = .answered e rest (.ok ())) : ∃ others, w.outbox = e :: others := by
  have hmem : t ∈ w.trails := htrails ▸ List.mem_append_right _ List.mem_cons_self
  have hruns := hsound.runs t hmem
  obtain ⟨done, hpending, -, hpublished⟩ := hruns.follows.of_taken hstage
  obtain ⟨others, hothers⟩ := hruns.left_committed hpending hpublished
  rw [h.abreast t hmem (by rw [Relay.hasEnded, hstage]), hsound.committed_eq, List.drop_left]
    at hothers
  exact ⟨rest ++ others, hothers.symm⟩

/-! ## What each move keeps -/

theorem InStep.start (h : w.InStep) {b : EventBus η} {r : Relay} (hpublished : r.published = 0)
    (hinHand : r.inHand = []) : (w.joined r b).InStep where
  delivered_eq := by
    rw [inHand, List.flatMap_append, List.flatMap_singleton, hinHand, List.append_nil]
    exact h.delivered_eq
  dropped := List.forall_mem_append.2 ⟨h.dropped, List.forall_mem_singleton.2 hinHand.symm⟩
  abreast := by
    refine List.forall_mem_append.2 ⟨h.abreast, List.forall_mem_singleton.2 (fun _ => ?_)⟩
    rw [Trail.place, hpublished, Nat.add_zero]

theorem InStep.deliver (h : w.InStep) (hw : w.underWay.length ≤ 1)
    (htrails : w.trails = earlier ++ t :: later) {e : AssetEvent} {rest : List AssetEvent}
    {answer : Option String} (hstage : t.relay.stage = .sent e rest)
    (htakes : t.relay.takes answer = [e]) : (w.told earlier t later answer e).InStep := by
  have hended : t.relay.hasEnded = false := by rw [Relay.hasEnded, hstage]
  have hnone : t.relay.inHand = [] := by rw [Relay.inHand, hstage]
  have htaken : (t.relay.settle answer).inHand = [e] := by
    rw [Relay.settle_inHand, hnone, htakes, List.nil_append]
  obtain ⟨hearlier, hlater⟩ := ended_of_alone hw htrails hended
  obtain ⟨hdelivered, hdropped, habreast⟩ := h
  rw [inHand, htrails, flatMap_inHand_alone hearlier hlater, hnone, List.append_nil, delivered]
    at hdelivered
  rw [htrails] at hdropped habreast
  have hmem : t ∈ earlier ++ t :: later := List.mem_append_right _ List.mem_cons_self
  refine ⟨?_, forall_swap hdropped (fun s hs => hs) ?_,
    forall_swap habreast (fun s hs => hs) (fun _ => ?_)⟩
  · rw [inHand, flatMap_inHand_alone hearlier hlater, htaken, delivered, List.map_append,
      hdelivered, List.map_singleton]
  · rw [htaken, hdropped t hmem, hnone, List.append_nil]
  · rw [Trail.place, Relay.settle_published]
    exact habreast t hmem hended

theorem InStep.turn (h : w.InStep) (htrails : w.trails = earlier ++ t :: later) {r : Relay}
    (hpublished : r.published = t.relay.published) (hinHand : r.inHand = t.relay.inHand)
    (hended : t.relay.hasEnded = true → r.hasEnded = true) :
    InStep { w with trails := earlier ++ { t with relay := r } :: later } := by
  obtain ⟨hdelivered, hdropped, habreast⟩ := h
  rw [inHand, htrails] at hdelivered
  rw [htrails] at hdropped habreast
  have hmem : t ∈ earlier ++ t :: later := List.mem_append_right _ List.mem_cons_self
  refine ⟨?_, forall_swap hdropped (fun s hs => hs) ?_,
    forall_swap habreast (fun s hs => hs) (fun hr => ?_)⟩
  · rw [inHand, flatMap_inHand_swap hinHand]
    exact hdelivered
  · rw [hinHand]
    exact hdropped t hmem
  · rw [Trail.place, hpublished]
    refine habreast t hmem ?_
    rw [Bool.eq_false_iff] at hr ⊢
    exact fun ht => hr (hended ht)

theorem InStep.drop (h : w.InStep) (hsound : w.Sound) (hw : w.underWay.length ≤ 1)
    (htrails : w.trails = earlier ++ t :: later) {e : AssetEvent} {rest : List AssetEvent}
    {r : Relay} {b : EventBus η} (hstage : t.relay.stage = .answered e rest (.ok ()))
    (hpublished : r.published = t.relay.published + 1) (hinHand : r.inHand = []) :
    (w.relieved earlier t later r b).InStep := by
  have hended : t.relay.hasEnded = false := by rw [Relay.hasEnded, hstage]
  have htaken : t.relay.inHand = [e] := by rw [Relay.inHand, hstage]
  obtain ⟨hearlier, hlater⟩ := ended_of_alone hw htrails hended
  obtain ⟨others, hothers⟩ := h.outbox_of_taken hsound htrails hstage
  have htake : w.outbox.take 1 = [e] := by rw [hothers]; rfl
  obtain ⟨hdelivered, hdropped, habreast⟩ := h
  rw [inHand, htrails, flatMap_inHand_alone hearlier hlater, htaken] at hdelivered
  rw [htrails] at hdropped habreast
  have hmem : t ∈ earlier ++ t :: later := List.mem_append_right _ List.mem_cons_self
  have hfree {ts : List Trail} {n : Nat} (hts : ∀ s ∈ ts, s.relay.hasEnded = true) :
      ∀ s ∈ ts, s.relay.hasEnded = false → s.place = n :=
    fun s hs hs' => by rw [hts s hs] at hs'; cases hs'
  rw [relieved, htake]
  refine ⟨?_, forall_swap hdropped (fun s hs => hs) ?_,
    List.forall_mem_append.2 ⟨hfree hearlier, List.forall_mem_cons.2 ⟨fun _ => ?_, hfree hlater⟩⟩⟩
  · rw [inHand, flatMap_inHand_alone hearlier hlater, hinHand, List.append_nil]
    exact hdelivered
  · rw [hinHand, List.append_nil, hdropped t hmem, htaken]
  · have hplace := habreast t hmem hended
    rw [Trail.place] at hplace
    rw [Trail.place, hpublished, List.length_append, List.length_singleton, ← hplace,
      Nat.add_assoc]

theorem InStep.move (h : w.InStep) (hsound : w.Sound) (hw : w.underWay.length ≤ 1)
    (hmove : Move w w') : w'.InStep := by
  cases hmove with
  | still _ => exact ⟨h.delivered_eq, h.dropped, h.abreast⟩
  | commit _ => exact ⟨h.delivered_eq, h.dropped, h.abreast⟩
  | start _ hpublished hinHand => exact h.start hpublished hinHand
  | deliver htrails hstage htakes => exact h.deliver hw htrails hstage htakes
  | turn htrails _ hpublished hinHand hended => exact h.turn htrails hpublished hinHand hended
  | drop htrails hstage _ hpublished hinHand =>
    exact h.drop hsound hw htrails hstage hpublished hinHand

/-! ## Runs -/

/-- At most one event is in hand, and it is the oldest of the outbox. -/
theorem InStep.outbox_eq (h : w.InStep) (hsound : w.Sound) (hw : w.underWay.length ≤ 1) :
    w.inHand.length ≤ 1 ∧ ∃ others, w.outbox = w.inHand ++ others := by
  by_cases hnone : w.inHand = []
  · rw [hnone]
    exact ⟨Nat.zero_le 1, w.outbox, rfl⟩
  obtain ⟨e, he⟩ := List.exists_mem_of_ne_nil _ hnone
  obtain ⟨t, hmem, he⟩ := List.mem_flatMap.1 he
  obtain ⟨e, rest, hstage⟩ := Relay.stage_of_inHand (List.ne_nil_of_mem he)
  obtain ⟨earlier, later, htrails⟩ := List.append_of_mem hmem
  obtain ⟨hearlier, hlater⟩ := ended_of_alone hw htrails (by rw [Relay.hasEnded, hstage])
  have hinHand : w.inHand = [e] := by
    rw [inHand, htrails, flatMap_inHand_alone hearlier hlater, Relay.inHand, hstage]
  rw [hinHand]
  exact ⟨Nat.le_refl 1, h.outbox_of_taken hsound htrails hstage⟩

end Traffic
end Interchain
