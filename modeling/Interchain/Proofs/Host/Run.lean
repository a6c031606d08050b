/-
Runs of a host.

`Host.step` is one operation on a host from outside, and `Host.run` any number of them.
Each operation, whether it succeeds or fails, keeps a host sound and moves its books
internally, or by the one grant that it makes on success (`step_evolves`).
-/
import Interchain.Proofs.Gateway.Faults
import Interchain.Proofs.Host.Closing

namespace Interchain

open Relation (ReflTransGen)

namespace Host

/-- An operation on a host from outside.  Chains may be spelled in any way, and a ledger
that is registered is one that the operations of a ledger have built. -/
inductive Action
  | register (stateMachine moduleAddress : String) (ledger : Ledger) (built : ledger.IsBuilt)
  | transfer (stateMachine caller : String) (params : TransferParams)
  | dispatchGet (stateMachine caller : String) (params : GetParams)
  | mint (stateMachine caller account : String) (amount : Int)
  | deliver (key : String)
  | respondToGet (key : String) (values : List StorageValue)
  | expire (clock : Int)
  | configure (stateMachine : String) (command : FaultCommand)
  | drainEvents (stateMachine : String)
  | discardEvents (stateMachine : String) (count : Int)

def configure (h : Host) (stateMachine : String) (command : FaultCommand) :
    Except Cause Host := do
  let l ← h.laneOf stateMachine
  return { h with
    exchange := h.exchange.updateLane l.chain.id
      (fun l => { l with faults := command.apply l.faults }) }

def updateModule (h : Host) (stateMachine : String) (f : AssetModule → AssetModule) :
    Except Cause Host := do
  let m ← h.moduleOf stateMachine
  return h.setModule (f m)

def orSame (h : Host) : Except Cause Host → Except Failure Unit × Host
  | .error c => (.error (.ofCause c), h)
  | .ok h' => (.ok (), h')

def step (h : Host) (now : Timestamp) : Action → Except Failure Unit × Host
  | .register id address l _ => h.orSame ((h.register id address l).map Prod.snd)
  | .transfer id caller p => h.call id now (.transfer caller p)
  | .dispatchGet id caller p => h.call id now (.dispatchGet caller p)
  | .mint id caller account n => h.call id now (.mint caller account n)
  | .deliver key => h.deliver now key
  | .respondToGet key values => h.respondToGet now key values
  | .expire clock =>
    match h.expire now clock with
    | (r, h) => (r.map (fun _ => ()), h)
  | .configure id command => h.orSame (h.configure id command)
  | .drainEvents id => h.orSame (h.updateModule id (fun m => m.drainEvents.2))
  | .discardEvents id count => h.orSame (h.updateModule id (·.discardEvents count))

def run (h : Host) : List (Timestamp × Action) → Host
  | [] => h
  | (now, a) :: rest => (h.step now a).2.run rest

/-! ## Grants -/

/-- What an operation grants if it succeeds. -/
def Action.grant : Action → Option Grant
  | .register id _ l _ =>
    match Chain.parse id with
    | .ok c => some (.opening c.id l)
    | .error _ => none
  | .mint id _ account n =>
    match Chain.parse id, Address.parse? account with
    | .ok c, some a => some (.genesis c.id a n.toNat)
    | _, _ => none
  | .transfer _ _ _ | .dispatchGet _ _ _ | .deliver _ | .respondToGet _ _ | .expire _
  | .configure _ _ | .drainEvents _ | .discardEvents _ _ => none

def Action.granted (a : Action) : Except Failure Unit → Option Grant
  | .ok () => a.grant
  | .error _ => none

def Action.issue : Action → Nat
  | .register _ _ l _ => l.supply
  | .mint _ _ _ n => n.toNat
  | .transfer _ _ _ | .dispatchGet _ _ _ | .deliver _ | .respondToGet _ _ | .expire _
  | .configure _ _ | .drainEvents _ | .discardEvents _ _ => 0

def Action.issued (a : Action) : Except Failure Unit → Nat
  | .ok () => a.issue
  | .error _ => 0

/-! ## Steps -/

variable {h h' : Host} {now : Timestamp} {id : String}

theorem sound_new (address : String) (clock : Int) (d : Draws) :
    (Host.new address clock d).Sound :=
  ⟨Exchange.Outline.sound_empty, rfl, fun _ hm => (nomatch hm), fun _ hm => (nomatch hm)⟩

/-- A host with one more module, on a lane whose nonces are all to be taken. -/
def registered (h : Host) (m : AssetModule) : Host :=
  { h with
    modules := h.modules ++ [m],
    exchange := { h.exchange with
      lanes := h.exchange.lanes ++ [⟨m.chain, m.moduleId, .new false, 0⟩] } }

theorem register_eq_ok {address : String} {l : Ledger} {name : String}
    (hreg : h.register id address l = .ok (name, h')) :
    ∃ m, Chain.parse id = .ok m.chain ∧ h.module? m.chain.id = none ∧
      Address.parse? h.address = some m.host ∧ m.ledger = l ∧ h' = h.registered m := by
  rw [register] at hreg
  obtain ⟨c, hc, hreg⟩ := bind_eq_ok.1 hreg
  have hparse := Params.chain_eq_ok.1 hc
  cases hfree : h.module? c.id with
  | some n =>
    rw [hfree] at hreg
    cases hreg
  | none =>
    rw [hfree] at hreg
    obtain ⟨m, hm, hreg⟩ := bind_eq_ok.1 hreg
    obtain ⟨hchain, hhost, -, hledger, -⟩ := AssetModule.ofConfig_eq_ok.1 hm
    rw [Chain.parse_id (Chain.isNamed_of_parse hparse), Except.ok.injEq] at hchain
    cases hchain
    cases hreg
    exact ⟨m, hparse, hfree, hhost, hledger, rfl⟩

theorem not_mem_of_module?_eq_none (hfree : h.module? id = none) :
    id ∉ h.modules.map (fun m => m.chain.id) := by
  intro hmem
  obtain ⟨n, hn, hid⟩ := List.mem_map.1 hmem
  exact List.find?_eq_none.1 hfree n hn (decide_eq_true hid)

theorem get?_ledgers_eq_none (hfree : h.module? id = none) :
    Table.get? id h.books.ledgers = none := by
  rw [Table.get?_eq_none_iff, Table.keys, books, List.map_map]
  exact not_mem_of_module?_eq_none hfree

theorem Sound.registered (hs : h.Sound) {m : AssetModule} (hfree : h.module? m.chain.id = none)
    (hnamed : m.chain.IsNamed) (hl : m.ledger.Sound) : (h.registered m).Sound := by
  have hnew : m.chain.id ∉ h.exchange.outline.ids :=
    hs.ids_eq ▸ not_mem_of_module?_eq_none hfree
  refine ⟨?_, ?_, fun n hn => ?_, fun n hn => ?_⟩
  · show Exchange.Outline.Sound ⟨(h.exchange.lanes ++ [_]).map Lane.card, _⟩
    rw [List.map_append]
    exact hs.exchange.addLane hnew m.moduleId
  · show ((h.exchange.lanes ++ [_]).map Lane.card).map _ = (h.modules ++ [m]).map _
    rw [List.map_append, List.map_append, List.map_append]
    exact congrArg (· ++ _) hs.cards
  · rcases List.mem_append.1 hn with hn | hn
    · exact hs.named n hn
    · exact (List.mem_singleton.1 hn) ▸ hnamed
  · rcases List.mem_append.1 hn with hn | hn
    · exact hs.ledgers n hn
    · exact (List.mem_singleton.1 hn) ▸ hl

theorem books_registered {m : AssetModule} (hfree : h.module? m.chain.id = none) :
    (h.registered m).books =
      ⟨Table.put m.chain.id m.ledger h.books.ledgers, h.books.transits⟩ := by
  rw [Table.put_of_get?_eq_none (get?_ledgers_eq_none hfree)]
  show Books.mk ((h.modules ++ [m]).map _) _ = _
  rw [List.map_append]
  rfl

theorem configure_alike {command : FaultCommand} (hc : h.configure id command = .ok h') :
    h.Alike h' := by
  obtain ⟨l, -, hc⟩ := bind_eq_ok.1 hc
  cases hc
  refine ⟨rfl, ?_⟩
  have hlanes := Exchange.map_card_updateLane h.exchange l.chain.id
    (f := fun l => { l with faults := command.apply l.faults }) (fun _ => rfl)
  exact congrArg (Exchange.Outline.mk · _) hlanes

theorem updateModule_alike (hs : h.Sound) {f : AssetModule → AssetModule}
    (hu : h.updateModule id f = .ok h') (hf : ∀ m, (f m).bare = m.bare) : h.Alike h' := by
  obtain ⟨m, hm, hu⟩ := bind_eq_ok.1 hu
  cases hu
  have hmem := (moduleOf_eq_ok hm).1
  refine ⟨?_, rfl⟩
  have hchain : (f m).chain = m.chain := congrArg (·.chain) (hf m)
  refine map_changed_of_eq (fun n hn hid => ?_)
  rw [hchain] at hid
  rw [hf, hs.eq_of_id hn hmem hid]

/-- What an operation with an outcome does to a host: it keeps the host sound, and moves
the books internally or by the grant that was made. -/
structure Evolves (h : Host) (a : Action) (r : Except Failure Unit) (h' : Host) : Prop where
  sound : h'.Sound
  books : h.books.Evolves (a.granted r) h'.books
  issued : a.issued r = ((a.granted r).map Grant.total).getD 0

theorem evolves_of_granted {a : Action} {r : Except Failure Unit} {g : Option Grant}
    (hgrant : a.granted r = g) (hissue : a.issued r = (g.map Grant.total).getD 0)
    (hsound : h'.Sound) (hbooks : h.books.Evolves g h'.books) : h.Evolves a r h' := by
  subst hgrant
  exact ⟨hsound, hbooks, hissue⟩

theorem Alike.evolves (hs : h.Sound) (hal : h.Alike h') {a : Action} {r : Except Failure Unit}
    (hgrant : a.granted r = none) (hissue : a.issued r = 0) : h.Evolves a r h' :=
  evolves_of_granted hgrant hissue (hs.alike hal) (Books.evolves_of_eq hal.books_eq)

/-- An operation that grants nothing, whatever its outcome. -/
theorem evolves_of_internal {a : Action} (hgrant : a.grant = none) (hissue : a.issue = 0)
    {r : Except Failure Unit} (hsound : h'.Sound) (hbooks : h.books.Evolves none h'.books) :
    h.Evolves a r h' := by
  cases r with
  | error f => exact evolves_of_granted rfl rfl hsound hbooks
  | ok u => exact evolves_of_granted hgrant hissue hsound hbooks

theorem orSame_evolves (hs : h.Sound) {a : Action} {x : Except Cause Host}
    (hx : ∀ h', x = .ok h' → h.Evolves a (.ok ()) h') :
    h.Evolves a (h.orSame x).1 (h.orSame x).2 := by
  cases x with
  | error c => exact (Alike.refl h).evolves hs rfl rfl
  | ok h' => exact hx h' rfl

theorem mint_evolves (hs : h.Sound) {caller account : String} {n : Int}
    {r : Except Failure Unit} (hcall : h.call id now (.mint caller account n) = (r, h')) :
    h.Evolves (.mint id caller account n) r h' := by
  cases r with
  | error f => exact (call_error hs hcall).evolves hs rfl rfl
  | ok u =>
    obtain ⟨m, a, hm, haccount, hsound, hevolves⟩ := call_mint hs hcall
    obtain ⟨-, c, hc, hid⟩ := moduleOf_eq_ok hm
    have hgrant : (Action.mint id caller account n).granted (.ok ()) =
        some (.genesis m.chain.id a n.toNat) := by
      rw [Action.granted, Action.grant, hc, haccount, ← hid]
    exact evolves_of_granted hgrant rfl hsound hevolves

theorem register_evolves (hs : h.Sound) {address : String} {l : Ledger} (built : l.IsBuilt)
    (hx : (h.register id address l).map Prod.snd = .ok h') :
    h.Evolves (.register id address l built) (.ok ()) h' := by
  obtain ⟨⟨name, h₁⟩, hreg, rfl⟩ := map_eq_ok.1 hx
  obtain ⟨m, hparse, hfree, -, rfl, hregistered⟩ := register_eq_ok hreg
  have hgrant : (Action.register id address m.ledger built).granted (.ok ()) =
      some (.opening m.chain.id m.ledger) := by
    rw [Action.granted, Action.grant, hparse]
  have hsound := hs.registered hfree (Chain.isNamed_of_parse hparse) built.sound
  rw [hregistered]
  refine evolves_of_granted hgrant rfl hsound ?_
  rw [books_registered hfree]
  exact .opened (get?_ledgers_eq_none hfree)

/-- Every operation keeps a host sound and moves its books by what it grants. -/
theorem step_evolves (hs : h.Sound) (now : Timestamp) (a : Action) :
    h.Evolves a (h.step now a).1 (h.step now a).2 := by
  cases a with
  | register id address l built =>
    exact orSame_evolves hs (fun h' hx => register_evolves hs built hx)
  | transfer id caller p =>
    obtain ⟨hsound, hevolves⟩ := call_transfer hs (rfl : h.call id now (.transfer caller p) = _)
    exact evolves_of_internal rfl rfl hsound hevolves
  | dispatchGet id caller p =>
    obtain ⟨hsound, hbooks⟩ :=
      call_dispatchGet hs (rfl : h.call id now (.dispatchGet caller p) = _)
    exact evolves_of_internal rfl rfl hsound (Books.evolves_of_eq hbooks)
  | mint id caller account n => exact mint_evolves hs rfl
  | deliver key =>
    obtain ⟨hsound, hevolves⟩ := deliver_evolves hs (rfl : h.deliver now key = _)
    exact evolves_of_internal rfl rfl hsound hevolves
  | respondToGet key values =>
    have hal := respondToGet_alike hs (rfl : h.respondToGet now key values = _)
    exact evolves_of_internal rfl rfl (hs.alike hal) (Books.evolves_of_eq hal.books_eq)
  | expire clock =>
    rcases hexpire : h.expire now clock with ⟨r, h'⟩
    obtain ⟨hsound, hevolves⟩ := expire_evolves hs hexpire
    rw [step, hexpire]
    exact evolves_of_internal rfl rfl hsound hevolves
  | configure id command =>
    exact orSame_evolves hs (fun h' hx => (configure_alike hx).evolves hs rfl rfl)
  | drainEvents id =>
    exact orSame_evolves hs
      (fun h' hx => (updateModule_alike hs hx (fun _ => rfl)).evolves hs rfl rfl)
  | discardEvents id count =>
    exact orSame_evolves hs
      (fun h' hx => (updateModule_alike hs hx (fun _ => rfl)).evolves hs rfl rfl)

theorem Sound.run (hs : h.Sound) (actions : List (Timestamp × Action)) :
    (h.run actions).Sound := by
  induction actions generalizing h with
  | nil => exact hs
  | cons e rest ih => exact ih (step_evolves hs e.1 e.2).sound

end Host
end Interchain
