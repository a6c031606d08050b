/-
The moves that every operation of a host is made of.

Whatever is asked of a host, it calls modules, and between the calls it sets a status, a
clock, a fault injector or an outbox, or adds a module.  `step_moves` takes each operation
apart into such moves, whether it succeeds or fails, so that what every single move keeps is
kept by every run (`Kept.run`).

The first property of that kind is `Served`: each module takes calls from this host, and the
source of every get that is tracked has a lane.
-/
import Interchain.Proofs.Host.Run
import Interchain.Proofs.Host.Tracking

namespace Interchain

open Relation (ReflTransGen)

namespace Host

def closedGet (h : Host) (key : String) (s : RequestStatus) : Host :=
  { h with exchange := h.exchange.setGetStatus key s }

/-- One thing that a host does to itself. -/
inductive Move : Host → Host → Prop
  | call {h : Host} {m : AssetModule} (mem : m ∈ h.modules) (now : Timestamp) (c : ModuleCall) :
      Move h (h.callModule m now c).2
  | delivering {h : Host} (key : Option String) : Move h (h.setDelivering key)
  | postStatus {h : Host} (key : String) (s : RequestStatus) : Move h (h.closed key s)
  | getStatus {h : Host} (key : String) (s : RequestStatus) : Move h (h.closedGet key s)
  | clock {h : Host} (clock : Int) : Move h { h with clock := clock }
  | faults {h : Host} (id : String) (f : SimulatedGateway → SimulatedGateway) :
      Move h { h with
        exchange := h.exchange.updateLane id (fun l => { l with faults := f l.faults }) }
  | outbox {h : Host} {m : AssetModule} (mem : m ∈ h.modules) (es : List AssetEvent) :
      Move h (h.setModule { m with outbox := es })
  | registered {h : Host} {m : AssetModule} (hosted : Address.parse? h.address = some m.host) :
      Move h (h.registered m)

abbrev Moves : Host → Host → Prop := ReflTransGen Move

variable {h h' h₁ : Host} {now : Timestamp} {id key : String} {c : ModuleCall}

/-! ## Operations in moves -/

theorem call_moves (h : Host) (id : String) (now : Timestamp) (c : ModuleCall) :
    h.Moves (h.call id now c).2 := by
  rw [call]
  cases hm : h.moduleOf id with
  | error e => exact .refl
  | ok m => exact .single (.call (moduleOf_eq_ok hm).1 now c)

theorem moves_of_call {r : Except Failure Unit} (hcall : h.call id now c = (r, h')) :
    h.Moves h' := by
  have hmoves := call_moves h id now c
  rwa [hcall] at hmoves

theorem handBack_moves (h : Host) (now : Timestamp) (key : String) :
    h.Moves (h.handBack now key).2 := by
  rw [handBack]
  split
  · exact call_moves h _ now _
  · exact .refl
  · exact .refl

theorem deliver_moves (h : Host) (now : Timestamp) (key : String) :
    h.Moves (h.deliver now key).2 := by
  have hstart : h.Moves (h.setDelivering (some key)) := .single (.delivering _)
  rcases hdeliver : h.deliver now key with ⟨r, h'⟩
  cases delivery_of_deliver hdeliver with
  | declined f => exact .refl
  | refused _ _ hcall => exact (hstart.trans (moves_of_call hcall)).tail (.delivering none)
  | @accepted p h₁ _ _ _ _ hcall hback =>
    have haccepted := (hstart.trans (moves_of_call hcall)).tail (.delivering none)
    have hlast := handBack_moves ((h₁.setDelivering none).closed key .responded) now key
    rw [hback] at hlast
    exact (haccepted.tail (.postStatus key .responded)).trans hlast

theorem respondToGet_moves (h : Host) (now : Timestamp) (key : String)
    (values : List StorageValue) : h.Moves (h.respondToGet now key values).2 := by
  rw [respondToGet]
  split
  · exact .refl
  · split
    · exact .refl
    · split
      · next hcall => exact moves_of_call hcall
      · next hcall => exact (moves_of_call hcall).tail (.getStatus key .responded)

theorem expirePosts_moves (now : Timestamp) (ps : List TrackedPost) (h : Host) :
    h.Moves (expirePosts now ps h).2 := by
  induction ps generalizing h with
  | nil => exact .refl
  | cons p ps ih =>
    rw [expirePosts]
    split
    · split
      · next hcall => exact moves_of_call hcall
      · next h₁ hcall =>
        have hclosed := (moves_of_call hcall).tail (.postStatus p.key .timedOut)
        exact hclosed.trans (ih _)
    · exact ih h

theorem expireGets_moves (now : Timestamp) (gs : List TrackedGet) (h : Host) :
    h.Moves (expireGets now gs h).2 := by
  induction gs generalizing h with
  | nil => exact .refl
  | cons g gs ih =>
    rw [expireGets]
    split
    · split
      · next hcall => exact moves_of_call hcall
      · next h₁ hcall =>
        have hclosed := (moves_of_call hcall).tail (.getStatus g.key .timedOut)
        exact hclosed.trans (ih _)
    · exact ih h

theorem expire_moves (h : Host) (now : Timestamp) (clock : Int) :
    h.Moves (h.expire now clock).2 := by
  rw [expire]
  split
  · exact .refl
  · have hstart : h.Moves { h with clock := clock } := .single (.clock clock)
    have hposts := expirePosts_moves now h.exchange.posts { h with clock := clock }
    simp only
    split
    · next hround =>
      rw [hround] at hposts
      exact hstart.trans hposts
    · next h₁ hround =>
      rw [hround] at hposts
      have hgets := expireGets_moves now h₁.exchange.gets h₁
      split
      · next hround =>
        rw [hround] at hgets
        exact (hstart.trans hposts).trans hgets
      · next hround =>
        rw [hround] at hgets
        exact (hstart.trans hposts).trans hgets

theorem orSame_moves {x : Except Cause Host} (hx : ∀ h', x = .ok h' → h.Moves h') :
    h.Moves (h.orSame x).2 := by
  cases x with
  | error e => exact .refl
  | ok h' => exact hx h' rfl

theorem updateModule_moves {f : AssetModule → AssetModule}
    (hf : ∀ m, ∃ es, f m = { m with outbox := es }) (hu : h.updateModule id f = .ok h') :
    h.Moves h' := by
  obtain ⟨m, hm, hu⟩ := bind_eq_ok.1 hu
  obtain ⟨es, hes⟩ := hf m
  cases hu
  rw [hes]
  exact .single (.outbox (moduleOf_eq_ok hm).1 es)

theorem step_moves (h : Host) (now : Timestamp) (a : Action) : h.Moves (h.step now a).2 := by
  cases a with
  | register id address l built =>
    refine orSame_moves (fun h' hx => ?_)
    obtain ⟨⟨name, h₁⟩, hreg, rfl⟩ := map_eq_ok.1 hx
    obtain ⟨m, -, -, hhosted, -, hregistered⟩ := register_eq_ok hreg
    rw [hregistered]
    exact .single (.registered hhosted)
  | transfer id caller p => exact call_moves h id now _
  | dispatchGet id caller p => exact call_moves h id now _
  | mint id caller account n => exact call_moves h id now _
  | deliver key => exact deliver_moves h now key
  | respondToGet key values => exact respondToGet_moves h now key values
  | expire clock => exact expire_moves h now clock
  | configure id command =>
    refine orSame_moves (fun h' hx => ?_)
    obtain ⟨l, -, hx⟩ := bind_eq_ok.1 hx
    cases hx
    exact .single (.faults l.chain.id command.apply)
  | drainEvents id => exact orSame_moves (fun h' => updateModule_moves (fun m => ⟨[], rfl⟩))
  | discardEvents id count => exact orSame_moves (fun h' => updateModule_moves (fun m => ⟨_, rfl⟩))

/-! ## What moves keep -/

def Kept (P : Host → Prop) : Prop := ∀ h h', P h → Move h h' → P h'

theorem Kept.moves {P : Host → Prop} (hP : Kept P) (h₀ : P h) (hmoves : h.Moves h') : P h' := by
  induction hmoves with
  | refl => exact h₀
  | tail _ hmove ih => exact hP _ _ ih hmove

theorem Kept.run {P : Host → Prop} (hP : Kept P) (h₀ : P h) (actions : List (Timestamp × Action)) :
    P (h.run actions) := by
  induction actions generalizing h with
  | nil => exact h₀
  | cons e rest ih => exact ih (hP.moves h₀ (step_moves h e.1 e.2))

/-! ## Hosts that serve their modules -/

/-- The host may call each of its modules, and every tracked get has a source to call. -/
structure Served (h : Host) : Prop where
  hosted : ∀ m ∈ h.modules, Address.parse? h.address = some m.host
  sourced : h.exchange.Sourced

theorem served_new (address : String) (clock : Int) (d : Draws) :
    (Host.new address clock d).Served :=
  ⟨fun _ hm => absurd hm List.not_mem_nil, fun _ hg => absurd hg List.not_mem_nil⟩

theorem Served.setModule {m n : AssetModule} (hv : h.Served) (hm : m ∈ h.modules)
    (hhost : n.host = m.host) : (h.setModule n).Served := by
  refine ⟨fun k hk => ?_, hv.sourced⟩
  rcases mem_setModule hk with rfl | hk
  · rw [hhost]
    exact hv.hosted m hm
  · exact hv.hosted k hk

theorem Served.callModule {m : AssetModule} (hv : h.Served) (hm : m ∈ h.modules)
    (now : Timestamp) (c : ModuleCall) : (h.callModule m now c).2.Served := by
  rcases hcall : h.callModule m now c with ⟨r, h'⟩
  obtain ⟨s, hsite, rfl⟩ := callModule_site hcall
  obtain ⟨⟨l, es, hassets⟩, hgateway⟩ :=
    Site.call_frame (Exchange.gatewayOf m.chain.id) now c ⟨m, h.exchange, h.metrics⟩
  rw [hsite] at hassets hgateway
  have hsourced : s.gateway.Sourced := by
    rcases hgateway with hgateway | ⟨kind, envelope, hgateway⟩
    · exact hgateway ▸ hv.sourced
    · exact hgateway ▸ hv.sourced.submit m.chain.id kind envelope
  have hreplaced : Served { h with exchange := s.gateway, metrics := s.metrics } :=
    ⟨hv.hosted, hsourced⟩
  have hassets : s.assets = { m with ledger := l, outbox := es } := hassets
  exact hreplaced.setModule hm (by rw [hassets])

theorem served_kept : Kept Served := by
  intro h h' hv hmove
  cases hmove with
  | call hm now c => exact hv.callModule hm now c
  | delivering key => exact ⟨hv.hosted, hv.sourced⟩
  | clock clock => exact ⟨hv.hosted, hv.sourced⟩
  | postStatus key s => exact ⟨hv.hosted, hv.sourced⟩
  | getStatus key s =>
    refine ⟨hv.hosted, hv.sourced.mono (fun _ hid => hid) (fun g hg => ?_)⟩
    obtain ⟨g', hg', rfl⟩ := List.mem_map.1 hg
    refine ⟨g', hg', ?_⟩
    split
    · rfl
    · rfl
  | faults id f =>
    have hlanes := Exchange.map_card_updateLane h.exchange id
      (f := fun l => { l with faults := f l.faults }) (fun _ => rfl)
    refine ⟨hv.hosted, hv.sourced.mono (fun i hi => ?_) (fun g hg => ⟨g, hg, rfl⟩)⟩
    show i ∈ (List.map Lane.card _).map (fun c => c.chain.id)
    rw [hlanes]
    exact hi
  | outbox hm es => exact hv.setModule hm rfl
  | registered hhosted =>
    refine ⟨fun n hn => ?_, hv.sourced.mono (fun i hi => ?_) (fun g hg => ⟨g, hg, rfl⟩)⟩
    · rcases List.mem_append.1 hn with hn | hn
      · exact hv.hosted n hn
      · rw [List.mem_singleton.1 hn]
        exact hhosted
    · show i ∈ (List.map Lane.card (h.exchange.lanes ++ [_])).map (fun c : Lane.Card => c.chain.id)
      rw [List.map_append, List.map_append]
      exact List.mem_append_left _ hi

theorem Served.setDelivering (hv : h.Served) (key : Option String) :
    (h.setDelivering key).Served := served_kept _ _ hv (.delivering key)

theorem served_run (address : String) (clock : Int) (d : Draws)
    (actions : List (Timestamp × Action)) : ((Host.new address clock d).run actions).Served :=
  served_kept.run (served_new address clock d) actions

end Host
end Interchain
