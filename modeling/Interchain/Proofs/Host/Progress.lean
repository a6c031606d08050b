/-
Operations of a host that cannot fail.

A call for which all holds that a commit asks for returns (`call_of_commit`), and the chain
of a module is found by its identifier (`Sound.moduleOf_id`).  So a host that is sound and
served gets through to the source and the destination of everything it tracks.
-/
import Interchain.Proofs.Asset.Progress
import Interchain.Proofs.Host.Moves

namespace Interchain
namespace Host

variable {h : Host} {m : AssetModule} {now : Timestamp} {c : ModuleCall} {id : String}

/-! ## Modules -/

theorem Sound.module?_id (hs : h.Sound) (hm : m ∈ h.modules) : h.module? m.chain.id = some m := by
  cases hfind : h.module? m.chain.id with
  | none =>
    have hfree := not_mem_of_module?_eq_none hfind
    exact absurd (List.mem_map_of_mem hm) hfree
  | some n =>
    obtain ⟨hn, hid⟩ := of_module?_eq_some hfind
    rw [hs.eq_of_id hn hm hid]

theorem Sound.moduleOf_id (hs : h.Sound) (hm : m ∈ h.modules) : h.moduleOf m.chain.id = .ok m := by
  have hparse := Params.chain_eq_ok.2 (Chain.parse_id (hs.named m hm))
  refine bind_eq_ok.2 ⟨m.chain, hparse, ?_⟩
  rw [hs.module?_id hm]
  rfl

/-- A chain with a lane has a module, which is found by the identifier of the chain. -/
theorem Sound.exists_moduleOf (hs : h.Sound) (hid : id ∈ h.exchange.outline.ids) :
    ∃ m ∈ h.modules, m.chain.id = id ∧ h.moduleOf id = .ok m := by
  rw [hs.ids_eq] at hid
  obtain ⟨m, hm, rfl⟩ := List.mem_map.1 hid
  exact ⟨m, hm, rfl, hs.moduleOf_id hm⟩

/-- A host that is served may call the module of every chain with a lane. -/
theorem Served.exists_module (hv : h.Served) (hs : h.Sound) (hid : id ∈ h.exchange.outline.ids) :
    ∃ m ∈ h.modules, m.chain.id = id ∧ h.moduleOf id = .ok m ∧
      ensureHost h.address m.host = .ok () := by
  obtain ⟨m, hm, hchain, hmodule⟩ := hs.exists_moduleOf hid
  exact ⟨m, hm, hchain, hmodule, ensureHost_eq_ok.2 (hv.hosted m hm)⟩

/-! ## Calls -/

theorem call_of_commit {l : Ledger} {body : EventBody} {x : Exchange} (now : Timestamp)
    (hm : h.moduleOf id = .ok m)
    (hcommit : Site.Commit (Exchange.gatewayOf m.chain.id) m h.exchange c l body x) :
    ∃ h', h.call id now c = (.ok (), h') ∧ h'.exchange = x := by
  obtain ⟨metrics, hcall⟩ := Site.call_of_commit ⟨m, h.exchange, h.metrics⟩ now hcommit
  rw [call, hm]
  simp only [callModule, hcall]
  exact ⟨_, rfl, rfl⟩

/-! ## Dispatches -/

/-- A transfer of what its sender has is tracked, if there is a lane to its destination,
unless its fault injector refuses it or it is beyond every index. -/
theorem transfer_tracked {l : Lane} {caller : String} {sender : Address} {p : TransferParams}
    {t : Transfer} {move : Ledger.Movement} {envelope : String} (now : Timestamp)
    (hm : h.moduleOf id = .ok m) (hl : h.exchange.lane? m.chain.id = some l)
    (hdest : (h.exchange.lane? t.dest.id).isSome = true)
    (hcaller : Address.parse? caller = some sender) (hcheck : p.check = .ok t)
    (hsender : sender.IsNarrow) (hrecipient : t.recipient.IsNarrow)
    (hmove : m.ledger.debitAccount sender t.amount = .ok move)
    (hencode : PostEnvelope.encode t.dest.id m.moduleId ⟨t.recipient, sender, t.amount⟩
      t.timeout t.gasLimit = .ok envelope)
    (hsize : Envelope.IsIndexed envelope)
    (hpass : (l.faults.settings.judge .post h.exchange.draws).1 = false) :
    ∃ h' e, h.call id now (.transfer caller p) = (.ok (), h') ∧ e.timeout = t.timeout ∧
      h'.exchange.posts =
        Exchange.place TrackedPost.key (Exchange.trackedPostOf l e) h.exchange.posts := by
  obtain ⟨b, -, hdecode⟩ := PostEnvelope.decode_of_encode hencode hsize
  obtain ⟨x, hsubmit, htracked⟩ := Exchange.submit_post_tracked hl hdecode hdest hpass
  obtain ⟨h', hcall, rfl⟩ := call_of_commit now hm
    (.transfer hcaller hcheck hsender hrecipient hmove hencode
      (Gateway.ofReplies_eq_accepted.2 hsubmit))
  exact ⟨h', _, hcall, Int.toNat_natCast t.timeout, htracked⟩

/-- A get whose parameters are in range is tracked with the keys that were checked, unless
its fault injector refuses it or it is beyond every index. -/
theorem dispatchGet_tracked {l : Lane} {caller : String} {a : Address} {p : GetParams} {q : Query}
    {envelope : String} (now : Timestamp) (hm : h.moduleOf id = .ok m)
    (hl : h.exchange.lane? m.chain.id = some l) (hcaller : Address.parse? caller = some a)
    (hcheck : p.check = .ok q)
    (hencode : GetEnvelope.encode q.dest.id q.keys q.height q.timeout q.gasLimit = .ok envelope)
    (hsize : Envelope.IsIndexed envelope)
    (hpass : (l.faults.settings.judge .get h.exchange.draws).1 = false) :
    ∃ h', h.call id now (.dispatchGet caller p) = (.ok (), h') ∧
      h'.exchange.posts = h.exchange.posts ∧ h'.exchange.gets = Exchange.place TrackedGet.key
        (Exchange.trackedGetOf l ⟨q.dest.id, q.height, q.keys, q.timeout, q.gasLimit⟩)
          h.exchange.gets := by
  have hdecode := GetEnvelope.decode_of_check hcheck hencode hsize
  obtain ⟨x, hsubmit, hposts, hgets⟩ := Exchange.submit_get_tracked hl hdecode hpass
  obtain ⟨h', hcall, rfl⟩ := call_of_commit now hm
    (.dispatchGet hcaller hcheck hencode (Gateway.ofReplies_eq_accepted.2 hsubmit))
  exact ⟨h', hcall, hposts, hgets⟩

/-! ## Registration -/

theorem step_register {address : String} {built : m.ledger.IsBuilt}
    (hchain : Chain.parse id = .ok m.chain) (hfree : h.module? m.chain.id = none)
    (hhost : Address.parse? h.address = some m.host)
    (haddress : Address.parse? address = some m.address) (hnew : m.outbox = []) :
    h.step now (.register id address m.ledger built) = (.ok (), h.registered m) := by
  have hid := Chain.parse_id (Chain.isNamed_of_parse hchain)
  have hreg : h.register id address m.ledger = .ok (m.chain.id, h.registered m) := by
    rw [register]
    refine bind_eq_ok.2 ⟨m.chain, Params.chain_eq_ok.2 hchain, ?_⟩
    rw [hfree]
    have hm : AssetModule.ofConfig ⟨m.chain.id, h.address, address⟩ m.ledger = .ok m :=
      AssetModule.ofConfig_eq_ok.2 ⟨hid, hhost, haddress, rfl, hnew⟩
    exact bind_eq_ok.2 ⟨m, hm, rfl⟩
  rw [step, hreg]
  rfl

theorem Sound.lane?_registered (hs : h.Sound) (hfree : h.module? m.chain.id = none) :
    (h.registered m).exchange.lane? m.chain.id = some ⟨m.chain, m.moduleId, .new false, 0⟩ := by
  have hnew : m.chain.id ∉ h.exchange.outline.ids :=
    hs.ids_eq ▸ not_mem_of_module?_eq_none hfree
  have hnone : h.exchange.lanes.find? (fun l => l.chain.id = m.chain.id) = none := by
    refine List.find?_eq_none.2 (fun l hl hid => hnew ?_)
    rw [← of_decide_eq_true hid]
    exact List.mem_map_of_mem (List.mem_map_of_mem hl)
  show (h.exchange.lanes ++ [_]).find? _ = _
  rw [List.find?_append, hnone, List.find?_singleton]
  simp only [decide_true, if_true, Option.none_or]

/-! ## A host with one chain

The runs that show what may happen to a request start with the same registration. -/

def outpost (l : Ledger) : AssetModule :=
  ⟨.parachain .polkadot 2000, ⟨0xaa, by decide⟩, ⟨0xbb, by decide⟩, l, []⟩

def vacant : Host := .new "0x00000000000000000000000000000000000000aa" 0 ⟨fun _ => 0, 0⟩

def manned (l : Ledger) : Host := vacant.registered (outpost l)

theorem parse_outpost : Chain.parse "POLKADOT-2000" = .ok (.parachain .polkadot 2000) := by
  decide

theorem id_outpost : (Chain.parachain .polkadot 2000).id = "POLKADOT-2000" := by decide

theorem step_vacant (l : Ledger) (built : l.IsBuilt) :
    vacant.step ⟨0⟩ (.register "POLKADOT-2000" "0x00000000000000000000000000000000000000bb" l
      built) = (.ok (), manned l) := by
  have hhost : Address.parse? "0x00000000000000000000000000000000000000aa" =
      some ⟨0xaa, by decide⟩ := by decide
  have haddress : Address.parse? "0x00000000000000000000000000000000000000bb" =
      some ⟨0xbb, by decide⟩ := by decide
  have houtpost : (outpost l).ledger.IsBuilt := built
  show vacant.step ⟨0⟩ (.register _ _ (outpost l).ledger houtpost) = _
  exact step_register parse_outpost rfl hhost haddress rfl

theorem run_vacant (l : Ledger) (built : l.IsBuilt) (rest : List (Timestamp × Action)) :
    vacant.run ((⟨0⟩, .register "POLKADOT-2000" "0x00000000000000000000000000000000000000bb" l
      built) :: rest) = (manned l).run rest := by
  rw [run, step_vacant]

theorem sound_manned {l : Ledger} (hl : l.Sound) : (manned l).Sound :=
  (sound_new _ _ _).registered rfl (Chain.isNamed_of_parse parse_outpost) hl

theorem moduleOf_manned {l : Ledger} (hl : l.Sound) :
    (manned l).moduleOf "POLKADOT-2000" = .ok (outpost l) := by
  rw [← id_outpost]
  have hmem : outpost l ∈ (manned l).modules := List.mem_append_right _ (List.mem_singleton.2 rfl)
  exact (sound_manned hl).moduleOf_id hmem

theorem lane?_manned (l : Ledger) : (manned l).exchange.lane? (outpost l).chain.id =
    some ⟨(outpost l).chain, (outpost l).moduleId, .new false, 0⟩ :=
  (sound_new _ _ _).lane?_registered rfl

theorem requestKey_outpost (l : Ledger) :
    requestKey (outpost l).chain.id (0 : Nat) = "POLKADOT-2000/0" := by
  show requestKey (Chain.parachain .polkadot 2000).id (0 : Nat) = _
  decide

end Host
end Interchain
