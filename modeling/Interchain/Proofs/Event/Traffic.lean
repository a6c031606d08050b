/-
Relays, calls and the broker, in any order.

`Traffic.act` is one thing that happens around a module and its bus: a call, a change of the
gateway or the bus, the start of a relay, an answer of the broker to one of the relays, or a
relay that goes on.  Any number of relays can be under way.  The record kept next to the
module says which events were committed, taken by the broker and dropped from the outbox.

`act_moves` takes every action apart into few moves, which say all that the record and the
relays can do; `moments_induction` carries what the moves keep through a run.
-/
import Interchain.Proofs.Asset.Call
import Interchain.Proofs.Event.Relay

namespace Interchain

variable {σ η : Type}

/-- A relay with the events that were pending when it began and how many had been dropped
before them, the events that the broker took from it, and those that it dropped. -/
structure Trail where
  base : Nat
  pending : List AssetEvent
  relay : Relay
  delivered : List AssetEvent
  removed : List AssetEvent

def Trail.place (t : Trail) : Nat := t.base + t.relay.published

/-- A module with its bus, the relays so far, and the record of events.  A delivery names the
place of its event among all the events committed. -/
structure Traffic (σ η : Type) where
  site : Site σ
  bus : EventBus η
  trails : List Trail
  committed : List AssetEvent
  deliveries : List (Nat × AssetEvent)
  removed : List AssetEvent

namespace Traffic

inductive Action (σ η : Type)
  | call (now : Timestamp) (c : ModuleCall)
  | changeGateway (f : σ → σ)
  /-- The bus connects or loses its connection, or another takes its place. -/
  | changeBus (f : EventBus η → EventBus η)
  | relay
  /-- The broker answers the relay with this number: it takes the event, or says why not. -/
  | answer (i : Nat) (answer : Option String)
  | resume (i : Nat)

/-- The traffic before the first relay.  The events that are pending count as committed. -/
def start (s : Site σ) (b : EventBus η) : Traffic σ η := ⟨s, b, [], s.assets.outbox, [], []⟩

def outbox (w : Traffic σ η) : List AssetEvent := w.site.assets.outbox

def delivered (w : Traffic σ η) : List AssetEvent := w.deliveries.map Prod.snd

/-- The events that the broker took and that are yet to be dropped. -/
def inHand (w : Traffic σ η) : List AssetEvent := w.trails.flatMap (·.relay.inHand)

def underWay (w : Traffic σ η) : List Trail := w.trails.filter (fun t => !t.relay.hasEnded)

/-- An answer to a relay.  It changes nothing if the relay waits for none. -/
def hear (w : Traffic σ η) (i : Nat) (answer : Option String) : Traffic σ η :=
  match w.trails[i]? with
  | none => w
  | some t =>
    let taken := t.relay.takes answer
    { w with
      trails := w.trails.set i
        { t with relay := t.relay.settle answer, delivered := t.delivered ++ taken }
      deliveries := w.deliveries ++ taken.map (fun e => (t.place, e)) }

/-- A relay goes on, if it is time.  What is gone from the outbox then is what it dropped. -/
def goOn (w : Traffic σ η) (i : Nat) : Traffic σ η :=
  match w.trails[i]? with
  | none => w
  | some t =>
    let (r, m, b) := t.relay.resume w.site.assets w.bus
    let gone := w.outbox.take (w.outbox.length - m.outbox.length)
    { w with
      site := { w.site with assets := m }
      bus := b
      trails := w.trails.set i { t with relay := r, removed := t.removed ++ gone }
      removed := w.removed ++ gone }

def act (g : Gateway σ) (w : Traffic σ η) : Action σ η → Traffic σ η
  | .call now c =>
    { w with
      site := (w.site.call g now c).2
      committed := w.committed ++ w.site.committed g now c }
  | .changeGateway f => { w with site := { w.site with gateway := f w.site.gateway } }
  | .changeBus f => { w with bus := f w.bus }
  | .relay =>
    let (r, b) := Relay.start w.site.assets w.bus
    { w with bus := b, trails := w.trails ++ [⟨w.removed.length, w.outbox, r, [], []⟩] }
  | .answer i answer => w.hear i answer
  | .resume i => w.goOn i

def moments (g : Gateway σ) (w : Traffic σ η) : List (Action σ η) → List (Traffic σ η)
  | [] => [w]
  | a :: rest => w :: moments g (w.act g a) rest

/-! ## What an action can do -/

variable {g : Gateway σ} {w w' : Traffic σ η}

abbrev joined (w : Traffic σ η) (r : Relay) (b : EventBus η) : Traffic σ η :=
  { w with bus := b, trails := w.trails ++ [⟨w.removed.length, w.outbox, r, [], []⟩] }

abbrev told (w : Traffic σ η) (earlier : List Trail) (t : Trail) (later : List Trail)
    (answer : Option String) (e : AssetEvent) : Traffic σ η :=
  { w with
    trails := earlier ++
      { t with relay := t.relay.settle answer, delivered := t.delivered ++ [e] } :: later
    deliveries := w.deliveries ++ [(t.place, e)] }

abbrev relieved (w : Traffic σ η) (earlier : List Trail) (t : Trail) (later : List Trail)
    (r : Relay) (b : EventBus η) : Traffic σ η :=
  { w with
    site := { w.site with assets := w.site.assets.discardEvents 1 }
    bus := b
    trails := earlier ++
      { t with relay := r, removed := t.removed ++ w.outbox.take 1 } :: later
    removed := w.removed ++ w.outbox.take 1 }

/-- A move of the traffic.  `deliver` and `drop` are the two halves of a publishing that
succeeds; `turn` is every other step of a relay. -/
inductive Move (w : Traffic σ η) : Traffic σ η → Prop
  | still {s : Site σ} {b : EventBus η} (assets_eq : s.assets = w.site.assets) :
      Move w { w with site := s, bus := b }
  | commit {s : Site σ} {es : List AssetEvent} (outbox_eq : s.assets.outbox = w.outbox ++ es) :
      Move w { w with site := s, committed := w.committed ++ es }
  | start {b : EventBus η} {r : Relay} (follows : r.Follows w.outbox [])
      (published_eq : r.published = 0) (inHand_eq : r.inHand = []) : Move w (w.joined r b)
  | deliver {earlier later : List Trail} {t : Trail} {e : AssetEvent} {rest : List AssetEvent}
      {answer : Option String} (trails_eq : w.trails = earlier ++ t :: later)
      (stage_eq : t.relay.stage = .sent e rest) (takes_eq : t.relay.takes answer = [e]) :
      Move w (w.told earlier t later answer e)
  | turn {earlier later : List Trail} {t : Trail} {r : Relay}
      (trails_eq : w.trails = earlier ++ t :: later)
      (follows : ∀ ps ds, t.relay.Follows ps ds → r.Follows ps ds)
      (published_eq : r.published = t.relay.published) (inHand_eq : r.inHand = t.relay.inHand)
      (hasEnded_of : t.relay.hasEnded = true → r.hasEnded = true) :
      Move w { w with trails := earlier ++ { t with relay := r } :: later }
  | drop {earlier later : List Trail} {t : Trail} {e : AssetEvent} {rest : List AssetEvent}
      {r : Relay} {b : EventBus η} (trails_eq : w.trails = earlier ++ t :: later)
      (stage_eq : t.relay.stage = .answered e rest (.ok ()))
      (follows : ∀ ps ds, t.relay.Follows ps ds → r.Follows ps ds)
      (published_eq : r.published = t.relay.published + 1) (inHand_eq : r.inHand = []) :
      Move w (w.relieved earlier t later r b)

theorem exists_set {α : Type} {l : List α} {i : Nat} {a : α} (h : l[i]? = some a) (x : α) :
    ∃ earlier later, l = earlier ++ a :: later ∧ l.set i x = earlier ++ x :: later := by
  obtain ⟨hi, rfl⟩ := List.getElem?_eq_some_iff.1 h
  obtain ⟨earlier, later, hl, -, hset⟩ := List.exists_of_set hi
  exact ⟨earlier, later, hl, hset⟩

theorem hear_moves (w : Traffic σ η) (i : Nat) (answer : Option String) :
    Move w (w.hear i answer) := by
  rw [hear]
  rcases htrail : w.trails[i]? with _ | t
  · exact .still rfl
  obtain ⟨earlier, later, htrails, hset⟩ := exists_set htrail
    { t with relay := t.relay.settle answer, delivered := t.delivered ++ t.relay.takes answer }
  dsimp only
  rw [hset]
  rcases Relay.takes_cases answer t.relay with htaken | ⟨e, rest, hstage, htaken⟩
  · have hinHand := Relay.settle_inHand answer t.relay
    rw [htaken, List.append_nil] at hinHand
    rw [htaken, List.append_nil, List.map_nil, List.append_nil]
    refine .turn htrails (fun ps ds h => ?_) (Relay.settle_published answer t.relay) hinHand
      (fun h => (Relay.settle_hasEnded answer t.relay).trans h)
    have h := h.settle answer
    rwa [htaken, List.append_nil] at h
  · rw [htaken, List.map_singleton]
    exact .deliver htrails hstage htaken

theorem goOn_moves (w : Traffic σ η) (i : Nat) : Move w (w.goOn i) := by
  rw [goOn]
  rcases htrail : w.trails[i]? with _ | t
  · exact .still rfl
  rcases Relay.resume_cases t.relay w.site.assets w.bus with
    ⟨e, rest, hstage⟩ | ⟨r, hresume, hpublished, hinHand, hinHand', hended⟩
  · obtain ⟨earlier, later, htrails, hset⟩ := exists_set htrail
      { t with
        relay := (t.relay.resume w.site.assets w.bus).1
        removed := t.removed ++ w.outbox.take 1 }
    have hassets : (t.relay.resume w.site.assets w.bus).2.1 = w.site.assets.discardEvents 1 := by
      rw [Relay.resume_taken hstage]
    have hgone : w.outbox.take (w.outbox.length - (w.site.assets.discardEvents 1).outbox.length) =
        w.outbox.take 1 := by
      show w.outbox.take (w.outbox.length - (w.outbox.drop 1).length) = _
      rw [List.length_drop, List.take_eq_take_iff]
      omega
    dsimp only
    rw [hassets, hgone, hset]
    refine .drop htrails hstage (fun ps ds h => h.resume w.site.assets w.bus) ?_ ?_
    · rw [Relay.resume_taken hstage, Relay.turn_published]
    · rw [Relay.resume_taken hstage, Relay.turn_inHand]
  · obtain ⟨earlier, later, htrails, hset⟩ := exists_set htrail { t with relay := r }
    have hgone : w.outbox.take (w.outbox.length - w.site.assets.outbox.length) = [] := by
      rw [outbox, Nat.sub_self, List.take_zero]
    dsimp only
    rw [hresume, hgone, List.append_nil, List.append_nil, hset]
    refine .turn htrails (fun ps ds h => ?_) hpublished (hinHand'.trans hinHand.symm) hended
    have h := h.resume w.site.assets w.bus
    rwa [hresume] at h

theorem act_moves (g : Gateway σ) (w : Traffic σ η) (a : Action σ η) : Move w (w.act g a) := by
  cases a with
  | call now c => exact .commit (Site.outbox_call g now c w.site)
  | changeGateway f => exact .still rfl
  | changeBus f => exact .still rfl
  | relay =>
    exact .start (Relay.follows_start w.site.assets w.bus) (Relay.turn_published _ _ _)
      (Relay.turn_inHand _ _ _)
  | answer i answer => exact hear_moves w i answer
  | resume i => exact goOn_moves w i

/-- What holds at first and is kept by every move, as long as `Q` holds, holds at every moment. -/
theorem moments_induction {P Q : Traffic σ η → Prop} {actions : List (Action σ η)} (hstart : P w)
    (hmove : ∀ v v', Q v → P v → Move v v' → P v') (hQ : ∀ v ∈ moments g w actions, Q v) :
    ∀ v ∈ moments g w actions, P v := by
  induction actions generalizing w with
  | nil => exact List.forall_mem_singleton.2 hstart
  | cons a rest ih =>
    obtain ⟨hw, hrest⟩ := List.forall_mem_cons.1 hQ
    exact List.forall_mem_cons.2 ⟨hstart, ih (hmove _ _ hw hstart (act_moves g w a)) hrest⟩

theorem foldl_mem_moments (g : Gateway σ) (w : Traffic σ η) (actions : List (Action σ η)) :
    actions.foldl (act g) w ∈ moments g w actions := by
  induction actions generalizing w with
  | nil => exact List.mem_singleton_self _
  | cons a rest ih => exact List.mem_cons_of_mem _ (ih _)

end Traffic
end Interchain
