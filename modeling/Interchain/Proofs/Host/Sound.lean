/-
What holds of every host, and what a call of one of its modules can do to it.

A sound host has one lane for each of its modules, modules on distinct chains that are
named by their own identifiers, sound ledgers, and a sound exchange.  Hosts are alike if
they differ only in events, metrics, fault injectors, acknowledgements and gets: alike
hosts are sound together and have the same books.
-/
import Interchain.Host.Basic
import Interchain.Proofs.Asset.Call
import Interchain.Proofs.Chain
import Interchain.Proofs.Host.Books
import Interchain.Proofs.Host.Exchange

namespace Interchain

def AssetModule.bare (m : AssetModule) : AssetModule := { m with outbox := [] }

def transitOf (e : PostRequest × RequestStatus) : Transit :=
  ⟨e.1.source, e.1.dest, (Payload.decode e.1.body).toOption, e.2⟩

namespace Host

def books (h : Host) : Books :=
  ⟨h.modules.map (fun m => (m.chain.id, m.ledger)),
    Table.mapValues transitOf h.exchange.outline.posts⟩

structure Sound (h : Host) : Prop where
  exchange : h.exchange.outline.Sound
  cards : h.exchange.outline.lanes.map (fun c => (c.chain, c.moduleId)) =
    h.modules.map (fun m => (m.chain, m.moduleId))
  named : ∀ m ∈ h.modules, m.chain.IsNamed
  ledgers : ∀ m ∈ h.modules, m.ledger.Sound

/-- Nothing but events, metrics, fault injectors, acknowledgements and gets differs. -/
structure Alike (h h' : Host) : Prop where
  modules : h'.modules.map AssetModule.bare = h.modules.map AssetModule.bare
  outline : h'.exchange.outline = h.exchange.outline

variable {h h' : Host} {m : AssetModule} {id : String}

/-! ## Hosts that are alike -/

theorem Alike.refl (h : Host) : h.Alike h := ⟨rfl, rfl⟩

theorem Alike.trans {h'' : Host} (h₁ : h.Alike h') (h₂ : h'.Alike h'') : h.Alike h'' :=
  ⟨h₂.modules.trans h₁.modules, h₂.outline.trans h₁.outline⟩

theorem Alike.setDelivering (hal : h.Alike h') (key : Option String) :
    h.Alike (h'.setDelivering key) := ⟨hal.modules, hal.outline⟩

theorem Alike.map_modules {α : Type} (hal : h.Alike h') (f : AssetModule → α)
    (hf : ∀ m, f m.bare = f m) : h'.modules.map f = h.modules.map f := by
  have hbare : ∀ ms : List AssetModule, ms.map f = (ms.map AssetModule.bare).map f := by
    intro ms
    rw [List.map_map]
    exact List.map_congr_left (fun m _ => (hf m).symm)
  rw [hbare, hbare h.modules, hal.modules]

theorem Alike.books_eq (hal : h.Alike h') : h'.books = h.books := by
  have hledgers := hal.map_modules (fun m => (m.chain.id, m.ledger)) (fun _ => rfl)
  rw [books, books, hledgers, hal.outline]

theorem Alike.exists_of_mem (hal : h.Alike h') (hm : m ∈ h'.modules) :
    ∃ n ∈ h.modules, n.bare = m.bare := by
  have hmem := List.mem_map_of_mem (f := AssetModule.bare) hm
  rw [hal.modules] at hmem
  exact List.mem_map.1 hmem

theorem Sound.alike (hs : h.Sound) (hal : h.Alike h') : h'.Sound := by
  refine ⟨?_, ?_, fun m hm => ?_, fun m hm => ?_⟩
  · rw [hal.outline]
    exact hs.exchange
  · rw [hal.outline, hs.cards]
    exact (hal.map_modules (fun m => (m.chain, m.moduleId)) (fun _ => rfl)).symm
  · obtain ⟨n, hn, hbare⟩ := hal.exists_of_mem hm
    have hchain : n.chain = m.chain := congrArg (·.chain) hbare
    exact hchain ▸ hs.named n hn
  · obtain ⟨n, hn, hbare⟩ := hal.exists_of_mem hm
    have hledger : n.ledger = m.ledger := congrArg (·.ledger) hbare
    exact hledger ▸ hs.ledgers n hn

theorem Sound.setDelivering (hs : h.Sound) (key : Option String) : (h.setDelivering key).Sound :=
  hs.alike ((Alike.refl h).setDelivering key)

/-! ## Modules by their chain -/

theorem Sound.ids_eq (hs : h.Sound) :
    h.exchange.outline.ids = h.modules.map (fun m => m.chain.id) := by
  have hcards := congrArg (List.map (fun c : Chain × String => c.1.id)) hs.cards
  rw [List.map_map, List.map_map] at hcards
  exact hcards

theorem Sound.nodup (hs : h.Sound) : (h.modules.map (fun m => m.chain.id)).Nodup := by
  rw [← hs.ids_eq]
  exact hs.exchange.nodup_ids

theorem Sound.eq_of_id (hs : h.Sound) {n : AssetModule} (hm : m ∈ h.modules)
    (hn : n ∈ h.modules) (hid : m.chain.id = n.chain.id) : m = n :=
  List.inj_on_of_nodup_map hs.nodup hm hn hid

theorem Sound.get?_ledgers (hs : h.Sound) (hm : m ∈ h.modules) :
    Table.get? m.chain.id h.books.ledgers = some m.ledger := by
  refine Table.get?_of_mem ?_ (List.mem_map_of_mem hm)
  have hkeys : Table.keys h.books.ledgers = h.modules.map (fun m => m.chain.id) := by
    rw [Table.keys, books, List.map_map]
    rfl
  rw [hkeys]
  exact hs.nodup

theorem of_module?_eq_some (h' : h.module? id = some m) : m ∈ h.modules ∧ m.chain.id = id := by
  have hid := List.find?_some h'
  exact ⟨List.mem_of_find?_eq_some h', of_decide_eq_true hid⟩

theorem moduleOf_eq_ok {t : String} (hm : h.moduleOf t = .ok m) :
    m ∈ h.modules ∧ ∃ c, Chain.parse t = .ok c ∧ c.id = m.chain.id := by
  obtain ⟨c, hc, hm⟩ := bind_eq_ok.1 hm
  cases hfind : h.module? c.id with
  | none =>
    rw [hfind] at hm
    cases hm
  | some n =>
    rw [hfind] at hm
    cases hm
    obtain ⟨hmem, hid⟩ := of_module?_eq_some hfind
    exact ⟨hmem, c, Params.chain_eq_ok.1 hc, hid.symm⟩

theorem Sound.id_of_moduleOf (hs : h.Sound) (hid : id ∈ h.exchange.outline.ids)
    (hm : h.moduleOf id = .ok m) : m.chain.id = id := by
  rw [hs.ids_eq] at hid
  obtain ⟨n, hn, rfl⟩ := List.mem_map.1 hid
  obtain ⟨-, c, hc, hcid⟩ := moduleOf_eq_ok hm
  rw [Chain.parse_id (hs.named n hn)] at hc
  cases hc
  exact hcid.symm

/-! ## Setting a module -/

theorem setModule_of_mem (hs : h.Sound) (hm : m ∈ h.modules) : h.setModule m = h := by
  have hmap : h.modules.map (fun n => if n.chain.id = m.chain.id then m else n) = h.modules := by
    conv => rhs; rw [← List.map_id h.modules]
    refine List.map_congr_left (fun n hn => ?_)
    split
    · next hid => exact (hs.eq_of_id hn hm hid).symm
    · rfl
  rw [setModule, hmap]

theorem mem_setModule {n : AssetModule} (hn : n ∈ (h.setModule m).modules) :
    n = m ∨ n ∈ h.modules := by
  obtain ⟨k, hk, rfl⟩ := List.mem_map.1 hn
  split
  · exact Or.inl rfl
  · exact Or.inr hk

theorem setModule_bare (h : Host) (m : AssetModule) :
    (h.setModule m).modules.map AssetModule.bare =
      (h.modules.map AssetModule.bare).map
        (fun n => if n.chain.id = m.chain.id then m.bare else n) :=
  map_changed (q := fun n : AssetModule => n.chain.id = m.chain.id) (fun _ _ => rfl)

def settle (h : Host) (m : AssetModule) (l : Ledger) (x : Exchange) : Host :=
  { h with exchange := x }.setModule { m with ledger := l }

theorem map_settle {α : Type} (f : AssetModule → α) {l : Ledger} {x : Exchange}
    (hf : ∀ n ∈ h.modules, n.chain.id = m.chain.id → f { m with ledger := l } = f n) :
    (h.settle m l x).modules.map f = h.modules.map f :=
  map_changed_of_eq hf

theorem mem_settle {l : Ledger} {x : Exchange} {n : AssetModule}
    (hn : n ∈ (h.settle m l x).modules) : n = { m with ledger := l } ∨ n ∈ h.modules :=
  mem_setModule hn

/-- A host stays sound if a ledger is exchanged for a sound one, and its exchange for one
with the same lanes. -/
theorem Sound.settle (hs : h.Sound) (hm : m ∈ h.modules) {l : Ledger} (hl : l.Sound)
    {x : Exchange} (hx : x.outline.Sound)
    (hlanes : x.outline.lanes.map (fun c => (c.chain, c.moduleId)) =
      h.exchange.outline.lanes.map (fun c => (c.chain, c.moduleId))) :
    (h.settle m l x).Sound := by
  refine ⟨hx, ?_, fun n hn => ?_, fun n hn => ?_⟩
  · have hmodules := map_settle (l := l) (x := x) (fun m => (m.chain, m.moduleId))
      (fun n hn hid => by rw [hs.eq_of_id hn hm hid]; rfl)
    rw [hmodules, ← hs.cards]
    exact hlanes
  · rcases mem_settle hn with rfl | hn
    · exact hs.named m hm
    · exact hs.named n hn
  · rcases mem_settle hn with rfl | hn
    · exact hl
    · exact hs.ledgers n hn

theorem books_settle (hs : h.Sound) (hm : m ∈ h.modules) (l : Ledger) (x : Exchange) :
    (h.settle m l x).books =
      ⟨Table.put m.chain.id l h.books.ledgers, Table.mapValues transitOf x.outline.posts⟩ := by
  have hledgers : (h.settle m l x).modules.map (fun n => (n.chain.id, n.ledger)) =
      h.books.ledgers.map (fun e => if e.1 = m.chain.id then (e.1, l) else e) :=
    map_changed (q := fun e : String × Ledger => e.1 = m.chain.id)
      (fun n hid => Prod.ext hid.symm rfl)
  have hkeys : (Table.keys h.books.ledgers).Nodup := by
    rw [Table.keys, books, List.map_map]
    exact hs.nodup
  rw [books, hledgers, Table.map_update (fun _ => l) hkeys (hs.get?_ledgers hm)]
  rfl

/-- A ledger and a post are entered together. -/
theorem books_settle_put (hs : h.Sound) (hm : m ∈ h.modules) (l : Ledger) {x : Exchange}
    {key : String} {v : PostRequest × RequestStatus}
    (hx : x.outline.posts = Table.put key v h.exchange.outline.posts) :
    (h.settle m l x).books = h.books.enter m.chain.id l key (transitOf v) := by
  rw [books_settle hs hm, hx, Table.mapValues_put]
  rfl

theorem get?_transits {key : String} {v : PostRequest × RequestStatus}
    (hget : Table.get? key h.exchange.outline.posts = some v) :
    Table.get? key h.books.transits = some (transitOf v) := by
  show Table.get? key (Table.mapValues transitOf h.exchange.outline.posts) = _
  rw [Table.get?_mapValues, hget]
  rfl

theorem payload_transitOf {v : PostRequest × RequestStatus} {p : Payload}
    (hdecode : Payload.decode v.1.body = .ok p) : (transitOf v).payload = some p := by
  show (Payload.decode v.1.body).toOption = _
  rw [hdecode]
  rfl

end Host
end Interchain
