/-
Relays in any number and in any order.

What is dropped from the outbox is the oldest of what was committed, and no more than the
broker took.  As long as the broker takes no event twice it takes them in the order in which
they were committed, and only what it took is dropped (`lossless_of_distinct`).

Two relays that overlap can go through the same events.  Each then drops an event for every
one that it publishes, so that the second relay drops events that no one published
(`overlap_loses_event`).
-/
import Interchain.Proofs.Asset.Acceptance
import Interchain.Proofs.Event.Traffic

namespace Interchain

variable {σ η : Type} {committed : List AssetEvent} {gone : Nat} {t : Trail}

/-- A relay in step with the record: it goes through what was committed from its base on, and
is past no event that is yet to be dropped. -/
structure Trail.Runs (t : Trail) (committed : List AssetEvent) (gone : Nat) : Prop where
  follows : t.relay.Follows t.pending t.delivered
  pending_committed : t.pending <+: committed.drop t.base
  place_le : t.place ≤ gone

namespace Trail.Runs

theorem committed_more (h : t.Runs committed gone) (es : List AssetEvent) :
    t.Runs (committed ++ es) gone := by
  refine ⟨h.follows, h.pending_committed.trans ?_, h.place_le⟩
  rw [List.drop_append]
  exact List.prefix_append _ _

theorem gone_more (h : t.Runs committed gone) {gone' : Nat} (hle : gone ≤ gone') :
    t.Runs committed gone' :=
  ⟨h.follows, h.pending_committed, Nat.le_trans h.place_le hle⟩

/-- What is left of the copy was committed in a row, from the place where the relay is. -/
theorem left_committed (h : t.Runs committed gone) {done left : List AssetEvent}
    (hpending : t.pending = done ++ left) (hpublished : t.relay.published = done.length) :
    left <+: committed.drop t.place := by
  obtain ⟨later, hlater⟩ := h.pending_committed
  refine ⟨later, ?_⟩
  rw [Trail.place, ← List.drop_drop, ← hlater, hpending, hpublished, List.append_assoc,
    List.drop_left]

theorem committed_at (h : t.Runs committed gone) {done rest : List AssetEvent} {e : AssetEvent}
    (hpending : t.pending = done ++ e :: rest) (hpublished : t.relay.published = done.length) :
    committed[t.place]? = some e := by
  obtain ⟨later, hlater⟩ := h.left_committed hpending hpublished
  have hfirst : (committed.drop t.place)[0]? = some e := by rw [← hlater]; rfl
  rwa [List.getElem?_drop] at hfirst

end Trail.Runs

namespace Traffic

variable {g : Gateway σ} {w w' : Traffic σ η} {earlier later : List Trail}

/-- What holds of all relays, and in its new form of the one that moves, holds of all after. -/
theorem forall_swap {P P' : Trail → Prop} {t t' : Trail}
    (h : ∀ s ∈ earlier ++ t :: later, P s) (hkept : ∀ s, P s → P' s) (ht' : P' t') :
    ∀ s ∈ earlier ++ t' :: later, P' s := by
  intro s hs
  rcases List.mem_append.1 hs with hs | hs
  · exact hkept s (h s (List.mem_append_left _ hs))
  rcases List.mem_cons.1 hs with rfl | hs
  · exact ht'
  · exact hkept s (h s (List.mem_append_right _ (List.mem_cons_of_mem _ hs)))

theorem flatMap_inHand_swap {t t' : Trail} (h : t'.relay.inHand = t.relay.inHand) :
    (earlier ++ t' :: later).flatMap (·.relay.inHand) =
      (earlier ++ t :: later).flatMap (·.relay.inHand) := by
  simp only [List.flatMap_append, List.flatMap_cons, h]

/-- The record and the relays fit together. -/
structure Sound (w : Traffic σ η) : Prop where
  committed_eq : w.committed = w.removed ++ w.outbox
  runs : ∀ t ∈ w.trails, t.Runs w.committed w.removed.length
  /-- For each event that is gone, and each that is in hand, there was a delivery. -/
  length_le : w.removed.length + w.inHand.length ≤ w.deliveries.length
  committed_at : ∀ d ∈ w.deliveries, w.committed[d.1]? = some d.2
  /-- If no place was delivered twice, the places were delivered one after another. -/
  places_eq : (w.deliveries.map Prod.fst).Nodup →
    w.deliveries.map Prod.fst = List.range w.deliveries.length

theorem sound_start (s : Site σ) (b : EventBus η) : (start s b).Sound where
  committed_eq := rfl
  runs := List.forall_mem_nil _
  length_le := Nat.le_refl 0
  committed_at := List.forall_mem_nil _
  places_eq _ := rfl

/-! ## What each move keeps -/

theorem Sound.commit (h : w.Sound) {s : Site σ} {es : List AssetEvent}
    (houtbox : s.assets.outbox = w.outbox ++ es) :
    Sound { w with site := s, committed := w.committed ++ es } where
  committed_eq := by
    show w.committed ++ es = w.removed ++ s.assets.outbox
    rw [houtbox, h.committed_eq, List.append_assoc]
  runs t ht := (h.runs t ht).committed_more es
  length_le := h.length_le
  committed_at d hd := by
    have hat := h.committed_at d hd
    exact (List.getElem?_append_left (List.getElem?_eq_some_iff.1 hat).1).trans hat
  places_eq := h.places_eq

theorem Sound.start (h : w.Sound) {b : EventBus η} {r : Relay} (hfollows : r.Follows w.outbox [])
    (hpublished : r.published = 0) (hinHand : r.inHand = []) : (w.joined r b).Sound where
  committed_eq := h.committed_eq
  runs := by
    refine List.forall_mem_append.2 ⟨h.runs, List.forall_mem_singleton.2 ⟨hfollows, ?_, ?_⟩⟩
    · refine ⟨[], ?_⟩
      rw [List.append_nil, h.committed_eq, List.drop_left]
    · rw [Trail.place, hpublished]
      exact Nat.le_refl _
  length_le := by
    rw [inHand, List.flatMap_append, List.flatMap_singleton, hinHand, List.append_nil]
    exact h.length_le
  committed_at := h.committed_at
  places_eq := h.places_eq

theorem append_eq_range {ps : List Nat} {n p : Nat} (hps : ps = List.range n) (hle : p ≤ n)
    (hnew : p ∉ ps) : ps ++ [p] = List.range (n + 1) := by
  subst hps
  rw [List.mem_range] at hnew
  have hp : p = n := by omega
  rw [List.range_succ, hp]

/-- A relay is past no event that is yet to be dropped, so that it delivers the next place or
one that was delivered before. -/
theorem Sound.deliver (h : w.Sound) (htrails : w.trails = earlier ++ t :: later) {e : AssetEvent}
    {rest : List AssetEvent} {answer : Option String} (hstage : t.relay.stage = .sent e rest)
    (htakes : t.relay.takes answer = [e]) : (w.told earlier t later answer e).Sound := by
  obtain ⟨hcommitted, hruns, hlength, hat, hplaces⟩ := h
  have hle : w.removed.length ≤ w.deliveries.length := by omega
  rw [inHand, htrails] at hlength
  rw [htrails] at hruns
  have ht := hruns t (List.mem_append_right _ List.mem_cons_self)
  obtain ⟨hpending, hpublished⟩ := ht.follows.of_sent hstage
  refine ⟨hcommitted, forall_swap hruns (fun s hs => hs) ⟨?_, ht.pending_committed, ?_⟩, ?_, ?_,
    fun hnodup => ?_⟩
  · rw [← htakes]
    exact ht.follows.settle answer
  · rw [Trail.place, Relay.settle_published]
    exact ht.place_le
  · simp only [inHand, List.flatMap_append, List.flatMap_cons, List.length_append,
      Relay.settle_inHand, htakes, List.length_singleton] at hlength ⊢
    omega
  · refine List.forall_mem_append.2 ⟨hat, List.forall_mem_singleton.2 ?_⟩
    exact ht.committed_at hpending hpublished
  · rw [List.map_append, List.map_singleton, List.nodup_append] at hnodup
    obtain ⟨hnodup, -, hnew⟩ := hnodup
    rw [List.map_append, List.map_singleton, List.length_append, List.length_singleton]
    exact append_eq_range (hplaces hnodup) (Nat.le_trans ht.place_le hle)
      (fun hmem => hnew _ hmem _ (List.mem_singleton_self _) rfl)

theorem Sound.turn (h : w.Sound) (htrails : w.trails = earlier ++ t :: later) {r : Relay}
    (hfollows : ∀ ps ds, t.relay.Follows ps ds → r.Follows ps ds)
    (hpublished : r.published = t.relay.published) (hinHand : r.inHand = t.relay.inHand) :
    Sound { w with trails := earlier ++ { t with relay := r } :: later } := by
  obtain ⟨hcommitted, hruns, hlength, hat, hplaces⟩ := h
  rw [inHand, htrails] at hlength
  rw [htrails] at hruns
  have ht := hruns t (List.mem_append_right _ List.mem_cons_self)
  refine ⟨hcommitted, forall_swap hruns (fun s hs => hs)
    ⟨hfollows _ _ ht.follows, ht.pending_committed, ?_⟩, ?_, hat, hplaces⟩
  · rw [Trail.place, hpublished]
    exact ht.place_le
  · rw [inHand, flatMap_inHand_swap hinHand]
    exact hlength

/-- The event in hand was committed.  So if the outbox is empty it was dropped before, and
otherwise one event is dropped now: either way the relay is past no event that is not. -/
theorem Sound.drop (h : w.Sound) (htrails : w.trails = earlier ++ t :: later) {e : AssetEvent}
    {rest : List AssetEvent} {r : Relay} {b : EventBus η}
    (hstage : t.relay.stage = .answered e rest (.ok ()))
    (hfollows : ∀ ps ds, t.relay.Follows ps ds → r.Follows ps ds)
    (hpublished : r.published = t.relay.published + 1) (hinHand : r.inHand = []) :
    (w.relieved earlier t later r b).Sound := by
  obtain ⟨hcommitted, hruns, hlength, hat, hplaces⟩ := h
  rw [inHand, htrails] at hlength
  rw [htrails] at hruns
  have ht := hruns t (List.mem_append_right _ List.mem_cons_self)
  obtain ⟨done, hpending, -, hdone⟩ := ht.follows.of_taken hstage
  have htaken : t.relay.inHand = [e] := by rw [Relay.inHand, hstage]
  have hgone : (w.removed ++ w.outbox.take 1).length =
      w.removed.length + min 1 w.outbox.length := by
    rw [List.length_append, List.length_take]
  -- the event in hand is one of those committed, which are the dropped and the pending ones
  have hplace : t.place + 1 ≤ (w.removed ++ w.outbox.take 1).length := by
    have hlt := (List.getElem?_eq_some_iff.1 (ht.committed_at hpending hdone)).1
    have hle := ht.place_le
    rw [hcommitted, List.length_append] at hlt
    omega
  have hmore : w.removed.length ≤ (w.removed ++ w.outbox.take 1).length := by omega
  refine ⟨?_, forall_swap hruns (fun s hs => hs.gone_more hmore)
    ⟨hfollows _ _ ht.follows, ht.pending_committed, ?_⟩, ?_, hat, hplaces⟩
  · show w.committed = w.removed ++ w.outbox.take 1 ++ w.outbox.drop 1
    rw [List.append_assoc, List.take_append_drop, hcommitted]
  · rwa [Trail.place, hpublished, ← Nat.add_assoc]
  · simp only [inHand, List.flatMap_append, List.flatMap_cons, List.length_append, htaken,
      hinHand, List.length_singleton, List.length_nil, List.length_take] at hlength ⊢
    omega

theorem Sound.move (h : w.Sound) (hmove : Move w w') : w'.Sound := by
  cases hmove with
  | still hassets =>
    refine ⟨h.committed_eq.trans ?_, h.runs, h.length_le, h.committed_at, h.places_eq⟩
    simp only [outbox, hassets]
  | commit houtbox => exact h.commit houtbox
  | start hfollows hpublished hinHand => exact h.start hfollows hpublished hinHand
  | deliver htrails hstage htakes => exact h.deliver htrails hstage htakes
  | turn htrails hfollows hpublished hinHand _ =>
    exact h.turn htrails hfollows hpublished hinHand
  | drop htrails hstage hfollows hpublished hinHand =>
    exact h.drop htrails hstage hfollows hpublished hinHand

/-! ## Runs -/

theorem sound_moments (g : Gateway σ) (s : Site σ) (b : EventBus η)
    (actions : List (Action σ η)) : ∀ w ∈ moments g (start s b) actions, w.Sound :=
  moments_induction (Q := fun _ => True) (sound_start s b) (fun _ _ _ h hmove => h.move hmove)
    (fun _ _ => trivial)

/-- If no place was delivered twice, what was delivered is the oldest of what was committed. -/
theorem Sound.delivered_oldest (h : w.Sound) (hplaces : (w.deliveries.map Prod.fst).Nodup) :
    w.delivered <+: w.committed := by
  rw [List.prefix_iff_getElem?]
  intro i hi
  have hlt : i < w.deliveries.length := by rwa [delivered, List.length_map] at hi
  have hplace : w.deliveries[i].1 = i := by
    have hat := congrArg (fun l => l[i]?) (h.places_eq hplaces)
    simpa [hlt] using hat
  have hat := h.committed_at w.deliveries[i] (List.getElem_mem hlt)
  rw [hplace] at hat
  simpa only [delivered, List.getElem_map] using hat

/-- Whatever relays overlap, what was dropped from the outbox is the oldest of what was
committed, there is a delivery for each event dropped, and only committed events are
delivered.  As long as no committed event is delivered twice, the events are delivered in the
order in which they were committed and only delivered events are dropped, so that every
committed event is in the outbox or was delivered. -/
theorem lossless_of_distinct (g : Gateway σ) (s : Site σ) (b : EventBus η)
    (actions : List (Action σ η)) : ∀ w ∈ moments g (start s b) actions,
    w.removed ++ w.outbox = w.committed ∧
    w.removed.length ≤ w.delivered.length ∧
    (∀ d ∈ w.deliveries, w.committed[d.1]? = some d.2) ∧
    ((w.deliveries.map Prod.fst).Nodup →
      w.removed <+: w.delivered ∧ w.delivered <+: w.committed ∧
        ∀ e ∈ w.committed, e ∈ w.outbox ∨ e ∈ w.delivered) := by
  intro w hw
  have h := sound_moments g s b actions w hw
  have hlength : w.removed.length ≤ w.delivered.length := by
    rw [delivered, List.length_map]
    exact Nat.le_trans (Nat.le_add_right _ _) h.length_le
  refine ⟨h.committed_eq.symm, hlength, h.committed_at, fun hplaces => ?_⟩
  have hdelivered := h.delivered_oldest hplaces
  have hremoved : w.removed <+: w.committed := ⟨w.outbox, h.committed_eq.symm⟩
  have holdest := List.prefix_of_prefix_length_le hremoved hdelivered hlength
  refine ⟨holdest, hdelivered, fun e he => ?_⟩
  rw [h.committed_eq, List.mem_append] at he
  exact he.symm.imp_right (fun he => holdest.subset he)

def connected : Traffic Unit Unit :=
  start Site.vacant ((EventBus.new "assets").connect none none).2

def twoMints : List (Action Unit Unit) :=
  [.call ⟨0⟩ (.mint "0x00000000000000000000000000000000000000aa"
      "0x0000000000000000000000000000000000000001" 5),
    .call ⟨1⟩ (.mint "0x00000000000000000000000000000000000000aa"
      "0x0000000000000000000000000000000000000002" 7)]

/-- Two relays wait with the first event at the same time.  The broker takes it from one of
them only, which goes on. -/
def overtaken : List (Action Unit Unit) :=
  twoMints ++ [.relay, .relay, .answer 0 none, .resume 0, .answer 1 (some "Redis down"),
    .resume 1, .answer 0 none, .resume 0]

theorem lossless_of_distinct_overtaken :
    ∃ w ∈ moments Site.agreeable connected overtaken, w.deliveries.map Prod.fst = [0, 1] ∧
      w.removed <+: w.delivered ∧ w.delivered <+: w.committed ∧ w.outbox = [] ∧
      w.trails.length = 2 ∧ ∀ e ∈ w.committed, e ∈ w.outbox ∨ e ∈ w.delivered := by
  have hend := foldl_mem_moments Site.agreeable connected overtaken
  have hplaces : (overtaken.foldl (act Site.agreeable) connected).deliveries.map Prod.fst =
      [0, 1] := rfl
  obtain ⟨-, -, -, hdistinct⟩ := lossless_of_distinct Site.agreeable Site.vacant
    ((EventBus.new "assets").connect none none).2 overtaken _ hend
  obtain ⟨hremoved, hdelivered, hkept⟩ := hdistinct (hplaces ▸ by decide)
  exact ⟨_, hend, hplaces, hremoved, hdelivered, rfl, rfl, hkept⟩

/-- Two relays wait with the first event at the same time.  The broker takes it from both, and
then refuses the second from both. -/
def crossed : List (Action Unit Unit) :=
  twoMints ++ [.relay, .relay, .answer 0 none, .resume 0, .answer 1 none, .resume 1,
    .answer 0 (some "Redis down"), .resume 0, .answer 1 (some "Redis down"), .resume 1]

/-- The second event is neither in the outbox nor was it delivered. -/
theorem overlap_loses_event :
    ∃ w ∈ moments Site.agreeable connected crossed, ∃ first second, first ≠ second ∧
      w.committed = [first, second] ∧ w.outbox = [] ∧ w.delivered = [first, first] ∧
      w.underWay = [] := by
  refine ⟨_, foldl_mem_moments _ _ _, _, _, fun hsame => ?_, rfl, rfl, rfl, rfl⟩
  have htime := congrArg AssetEvent.timestamp hsame
  revert htime
  decide

end Traffic
end Interchain
