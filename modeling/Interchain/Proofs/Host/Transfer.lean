/-
What is asked of a transfer is what travels.

A transfer is checked by its module, written to an envelope, read by the exchange and tracked.
`Sendable` says what it takes, in terms of the call alone, and `Sent` what is there when it
has returned.  Between the two stands a round trip: the exchange reads the destination, the
module, the payload and the limits that were written (`eq_of_decode_own`), and adds of its
own only the source, its module and its next nonce (`of_submit_post`).  `transfer_sent` puts
them together for every host that anyone can reach.
-/
import Interchain.Proofs.Asset.Outbound
import Interchain.Proofs.Host.Lifetime

namespace Interchain

/-! ## Envelopes of a module -/

namespace AssetModule

variable {m : AssetModule} {dest envelope : String} {payload : Payload} {timeout gasLimit : Int}

/-- Whoever reads the envelope of a module at an address of 20 bytes reads what it wrote, the
name of the module included. -/
theorem eq_of_decode_own (hnarrow : m.address.IsNarrow)
    (hencode : PostEnvelope.encode dest m.moduleId payload timeout gasLimit = .ok envelope)
    {e : PostEnvelope} (hdecode : PostEnvelope.decode envelope = .ok e) :
    e = ⟨dest, m.moduleId, Hex.render payload.encode, timeout.toNat, gasLimit.toNat⟩ := by
  obtain ⟨b, hb, he⟩ := PostEnvelope.eq_of_decode hencode hdecode
  rw [bytesArgument_moduleId hnarrow] at hb
  rw [he, ← Except.ok.inj hb, moduleId, Address.renderLower_of_narrow hnarrow]

/-- The envelope that a transfer comes to, if it comes to one, is shorter than 2 ^ 53 bytes. -/
def WritesIndexed (m : AssetModule) (caller : String) (p : TransferParams) : Prop :=
  ∀ sender t envelope, Address.parse? caller = some sender → p.check = .ok t →
    PostEnvelope.encode t.dest.id m.moduleId ⟨t.recipient, sender, t.amount⟩ t.timeout t.gasLimit =
      .ok envelope → Envelope.IsIndexed envelope

end AssetModule

/-- A debit takes its amount from the supply and from one balance. -/
theorem Ledger.Sound.debited {l : Ledger} (hl : l.Sound) {a : Address} {n : Nat}
    {move : Ledger.Movement} (hmove : l.debitAccount a n = .ok move) :
    (l.apply move).supply + n = l.supply ∧ (l.apply move).balance a + n = l.balance a ∧
      ∀ b, b ≠ a → (l.apply move).balance b = l.balance b := by
  obtain ⟨rfl, hle⟩ := debitAccount_eq_ok.1 hmove
  have hsupply := hl.balance_le_supply a
  refine ⟨Nat.sub_add_cancel (Nat.le_trans hle hsupply), ?_,
    fun b hb => balance_apply_of_ne l _ hb⟩
  have hself : (l.apply (l.lower a n)).balance a = l.balance a - n := balance_apply_self l _
  rw [hself]
  exact Nat.sub_add_cancel hle

namespace Exchange

variable {x y : Exchange} {l : Lane} {source envelope : String} {nonce : Int}

/-- The fault injectors of other lanes see nothing of a submission. -/
theorem lane?_passFaults_of_ne (x : Exchange) {l : Lane} {s : String} (hne : s ≠ l.chain.id)
    (kind : SubmissionKind) (envelope : String) :
    (x.passFaults l kind envelope).2.lane? s = x.lane? s :=
  lane?_updateLane_of_ne { x with draws := (l.faults.submit kind envelope x.draws).2.2 }
    (f := fun k => { k with faults := (l.faults.submit kind envelope x.draws).2.1 })
    (fun _ => rfl) hne

theorem lane?_takeNonce_of_ne (x : Exchange) {l : Lane} {s : String} (hne : s ≠ l.chain.id) :
    (x.takeNonce l).lane? s = x.lane? s :=
  lane?_updateLane_of_ne x (f := fun k => { k with nextNonce := k.nextNonce + 1 })
    (fun _ => rfl) hne

/-- A post that was accepted could be read, had a lane to go to and passed the fault
injector; it is tracked as it was read, after all others. -/
theorem of_submit_post (hx : x.Numbered) (hl : x.lane? source = some l)
    (h : submit source .post envelope x = (.accepted nonce, y)) :
    ∃ e, PostEnvelope.decode envelope = .ok e ∧ (x.lane? e.dest).isSome = true ∧
      (l.faults.settings.judge .post x.draws).1 = false ∧
      y.posts = x.posts ++ [trackedPostOf l e] ∧ y.gets = x.gets ∧
      (∀ s, y.nextNonce s = if s = source then x.nextNonce s + 1 else x.nextNonce s) ∧
      ∀ s, s ≠ source → y.lane? s = x.lane? s := by
  have hkind : SubmissionKind.post ≠ .response := by decide
  have hfiles := submit_files hx hl hkind envelope
  rw [h] at hfiles
  obtain ⟨-, rfl⟩ := of_lane?_eq_some hl
  have hsubmit : x.submitPost l envelope = (.accepted nonce, y) := by
    rw [submit, hl] at h
    exact h
  have hgets := gets_submitPost x l envelope
  rw [hsubmit] at hgets
  rw [submitPost] at hsubmit
  split at hsubmit
  · cases hsubmit
  · next e hdecode =>
    cases hdest : x.lane? e.dest with
    | none =>
      rw [hdest] at hsubmit
      cases hsubmit
    | some k =>
      rw [hdest] at hsubmit
      have hposts := posts_passFaults x l .post envelope
      have hlanes := fun s hne => lane?_passFaults_of_ne x (l := l) (s := s) hne .post envelope
      -- the post is tracked in what the fault injector leaves: the exchange with other draws
      rcases hfaults : x.passFaults l .post envelope with ⟨r, z⟩
      rw [hfaults] at hsubmit hposts hlanes
      obtain ⟨hidles, ⟨faults, hlane⟩, ⟨hpass, n, rfl⟩ | ⟨reason, rfl⟩⟩ := of_passFaults hl hfaults
      · have htracked : y = (z.trackPost l e).2 := (congrArg Prod.snd hsubmit).symm
        refine ⟨e, hdecode, by rw [hdest]; rfl, hpass, ?_, hgets, ?_, fun s hne => ?_⟩
        · rw [htracked, posts_trackPost, posts_of_fresh (hidles.numbered hx) hlane e, hposts]
        · cases hfiles with
          | tracked _ _ _ hnonces => exact hnonces
        · rw [htracked]
          exact (lane?_takeNonce_of_ne z hne).trans (hlanes s hne)
      · cases hsubmit

end Exchange

namespace Host

variable {h h' : Host} {m : AssetModule} {l : Lane} {id caller : String} {now : Timestamp}
  {p : TransferParams} {sender recipient : Address} {dest : Chain}

/-! ## Chains and their lanes -/

theorem Sound.isSome_lane? (hs : h.Sound) (id : String) :
    (h.exchange.lane? id).isSome = (h.module? id).isSome := by
  rw [Bool.eq_iff_iff]
  constructor
  · intro hlane
    obtain ⟨l, hl⟩ := Option.isSome_iff_exists.1 hlane
    obtain ⟨hcard, rfl⟩ := Exchange.of_lane?_eq_some hl
    have hmem : l.chain.id ∈ h.exchange.outline.ids := List.mem_map_of_mem hcard
    rw [hs.ids_eq] at hmem
    obtain ⟨m, hm, hid⟩ := List.mem_map.1 hmem
    exact List.find?_isSome.2 ⟨m, hm, decide_eq_true hid⟩
  · intro hmodule
    obtain ⟨m, hm, hid⟩ := List.find?_isSome.1 hmodule
    have hmem := List.mem_map_of_mem (f := fun m : AssetModule => m.chain.id) hm
    rw [← hs.ids_eq, of_decide_eq_true hid] at hmem
    exact Option.isSome_iff_exists.2 (Exchange.exists_lane? hmem)

theorem Sound.exists_lane (hs : h.Sound) (hm : m ∈ h.modules) :
    ∃ l, h.exchange.lane? m.chain.id = some l := by
  have hmodule : (h.module? m.chain.id).isSome = true := by
    rw [hs.module?_id hm]
    rfl
  rw [← hs.isSome_lane?] at hmodule
  exact Option.isSome_iff_exists.1 hmodule

theorem Sound.moduleId_of_card (hs : h.Sound) (hm : m ∈ h.modules) {c : Lane.Card}
    (hcard : c ∈ h.exchange.outline.lanes) (hid : c.chain.id = m.chain.id) :
    c.moduleId = m.moduleId := by
  have hmem := List.mem_map_of_mem (f := fun c : Lane.Card => (c.chain, c.moduleId)) hcard
  rw [hs.cards] at hmem
  obtain ⟨n, hn, hname⟩ := List.mem_map.1 hmem
  obtain ⟨hchain, hmodule⟩ := Prod.mk.inj hname
  have hsame : n.chain.id = m.chain.id := by rw [hchain]; exact hid
  rw [← hs.eq_of_id hn hm hsame]
  exact hmodule.symm

theorem Sound.moduleId_of_lane? (hs : h.Sound) (hm : m ∈ h.modules)
    (hl : h.exchange.lane? m.chain.id = some l) : l.moduleId = m.moduleId := by
  obtain ⟨hcard, hid⟩ := Exchange.of_lane?_eq_some hl
  exact hs.moduleId_of_card hm hcard hid

/-! ## Transfers -/

/-- What it takes to send a transfer: two addresses of no more than 20 bytes, a chain that is
registered, numbers in range, an amount that the sender has, and a fault injector that lets
it pass. -/
structure Sendable (h : Host) (m : AssetModule) (l : Lane) (caller : String) (p : TransferParams)
    (sender recipient : Address) (dest : Chain) : Prop where
  sender_eq : Address.parse? caller = some sender
  narrow_sender : sender.IsNarrow
  recipient_eq : Address.parse? p.recipient = some recipient
  narrow_recipient : recipient.IsNarrow
  dest_eq : Chain.parse p.dest = .ok dest
  registered : (h.module? dest.id).isSome = true
  amount : 0 ≤ p.amount ∧ p.amount ≤ maxUint256
  timeout : 0 ≤ p.timeout ∧ p.timeout ≤ maxUint64
  gasLimit : 0 ≤ p.gasLimit ∧ p.gasLimit ≤ maxUint64
  covered : p.amount ≤ m.ledger.balance sender
  passes : (l.faults.settings.judge .post h.exchange.draws).1 = false

/-- What there is once a transfer was sent: one more post, which names the module at both
ends and carries who receives, who sends and how much; a ledger that has lost the amount; one
event.  Everything else of requests, lanes and modules is as it was. -/
structure Sent (h : Host) (m : AssetModule) (now : Timestamp) (p : TransferParams)
    (sender recipient : Address) (dest : Chain) (h' : Host) : Prop where
  post : ∃ body, Payload.decode body = .ok ⟨recipient, sender, p.amount.toNat⟩ ∧
    h'.exchange.posts = h.exchange.posts ++
      [⟨requestKey m.chain.id (h.exchange.nextNonce m.chain.id),
        ⟨m.chain.id, dest.id, h.exchange.nextNonce m.chain.id, m.moduleId, m.moduleId, p.timeout,
          body, p.gasLimit⟩, .dispatched, none⟩]
  gets : h'.exchange.gets = h.exchange.gets
  nonces : ∀ s, h'.exchange.nextNonce s =
    if s = m.chain.id then h.exchange.nextNonce s + 1 else h.exchange.nextNonce s
  lanes : ∀ s, s ≠ m.chain.id → h'.exchange.lane? s = h.exchange.lane? s
  assets : ∃ ledger : Ledger,
    ledger.supply + p.amount = m.ledger.supply ∧
    ledger.balance sender + p.amount = m.ledger.balance sender ∧
    (∀ a, a ≠ sender → ledger.balance a = m.ledger.balance a) ∧
    h'.modules = (h.setModule { m with
      ledger := ledger
      outbox := m.outbox ++ [⟨m.chain.id, now,
        .balanceBurnt sender.render recipient.render p.amount dest.id⟩] }).modules

/-- A transfer that returns could be sent, and was. -/
theorem sent_of_call (hs : h.Sound) (hx : h.exchange.Numbered) (hm : h.moduleOf id = .ok m)
    (hl : h.exchange.lane? m.chain.id = some l) (hnarrow : m.address.IsNarrow)
    (hcall : h.call id now (.transfer caller p) = (.ok (), h')) :
    ∃ sender recipient dest, h.Sendable m l caller p sender recipient dest ∧
      h.Sent m now p sender recipient dest h' := by
  have hmem := (moduleOf_eq_ok hm).1
  obtain ⟨n, hn, ledger, body, hcommit, hmodules⟩ := call_commits hcall
  rw [hm, Except.ok.injEq] at hn
  subst hn
  cases hcommit with
  | @transfer _ _ sender t move envelope nonce _ hsender hcheck hnarrow₁ hnarrow₂ hmove hencode
      hsubmit =>
    obtain ⟨hrecipient, hdest, ⟨hamount, hmax⟩, ⟨htimeout, htmax⟩, hgas, hgmax⟩ :=
      TransferParams.check_eq_ok.1 hcheck
    obtain ⟨e, hdecode, hlane, hpass, hposts, hgets, hnonces, hlanes⟩ :=
      Exchange.of_submit_post hx hl (Gateway.ofReplies_eq_accepted.1 hsubmit)
    have he := AssetModule.eq_of_decode_own hnarrow hencode hdecode
    subst he
    have hcovered := (Ledger.debitAccount_eq_ok.1 hmove).2
    obtain ⟨hsupply, hbalance, hothers⟩ := (hs.ledgers m hmem).debited hmove
    rw [hs.isSome_lane?] at hlane
    refine ⟨sender, t.recipient, t.dest, ⟨hsender, hnarrow₁, hrecipient, hnarrow₂, hdest, hlane,
      by omega, by omega, by omega, by omega, hpass⟩, ?_, hgets, hnonces, hlanes,
      m.ledger.apply move, by omega, by omega, hothers, ?_⟩
    · have hbody : Payload.decode (Hex.render (Payload.encode ⟨t.recipient, sender, t.amount⟩)) =
          .ok ⟨t.recipient, sender, t.amount⟩ := Payload.decode_render ⟨hnarrow₂, hnarrow₁, hmax⟩
      have hn : p.amount.toNat = t.amount := by omega
      refine ⟨_, by rw [hn]; exact hbody, ?_⟩
      obtain ⟨-, hid⟩ := Exchange.of_lane?_eq_some hl
      rw [hposts, Exchange.nextNonce_of_lane? hl, ← hs.moduleId_of_lane? hmem hl, ← hid, htimeout,
        hgas]
      rfl
    · rw [hmodules, hamount]
      rfl

theorem call_of_sendable (hs : h.Sound) (hm : h.moduleOf id = .ok m)
    (hl : h.exchange.lane? m.chain.id = some l) (hnarrow : m.address.IsNarrow)
    (hsize : m.WritesIndexed caller p) (hp : h.Sendable m l caller p sender recipient dest)
    (now : Timestamp) : ∃ h', h.call id now (.transfer caller p) = (.ok (), h') := by
  have hamount := hp.amount
  have htimeout := hp.timeout
  have hgas := hp.gasLimit
  have hcovered := hp.covered
  have hcheck : p.check = .ok
      ⟨recipient, dest, p.amount.toNat, p.timeout.toNat, p.gasLimit.toNat⟩ :=
    TransferParams.check_eq_ok.2 ⟨hp.recipient_eq, hp.dest_eq, by simp only; omega,
      by simp only; omega, by simp only; omega⟩
  have hmove := Ledger.debitAccount_eq_ok (l := m.ledger) (a := sender) (n := p.amount.toNat).2
    ⟨rfl, by omega⟩
  obtain ⟨envelope, hencode⟩ : ∃ envelope, PostEnvelope.encode dest.id m.moduleId
      ⟨recipient, sender, p.amount.toNat⟩ p.timeout.toNat p.gasLimit.toNat = .ok envelope :=
    ⟨_, PostEnvelope.encode_eq_ok.2 ⟨_, ⟨rfl, by omega⟩, _, ⟨rfl, by omega⟩, _,
      AssetModule.bytesArgument_moduleId hnarrow, rfl⟩⟩
  have hdest := hp.registered
  rw [← hs.isSome_lane?] at hdest
  obtain ⟨h', e, hcall, -⟩ := transfer_tracked now hm hl hdest hp.sender_eq hcheck
    hp.narrow_sender hp.narrow_recipient hmove hencode
    (hsize _ _ _ hp.sender_eq hcheck hencode) hp.passes
  exact ⟨h', hcall⟩

/-- Whatever host is reached and whatever chain of it has its module at an address of 20
bytes: a transfer returns if and only if it can be sent, as long as its envelope is shorter
than 2 ^ 53 bytes; and one that returns was sent as it was asked. -/
theorem transfer_sent {address : String} {clock : Int} {d : Draws}
    (hreach : (Host.new address clock d).Reaches h) (hm : h.moduleOf id = .ok m)
    (hnarrow : m.address.IsNarrow) :
    ∃ l, h.exchange.lane? m.chain.id = some l ∧
      ∀ now caller p, m.WritesIndexed caller p →
        ((∃ h', h.call id now (.transfer caller p) = (.ok (), h')) ↔
          ∃ sender recipient dest, h.Sendable m l caller p sender recipient dest) ∧
        ∀ h', h.call id now (.transfer caller p) = (.ok (), h') →
          ∃ sender recipient dest, h.Sendable m l caller p sender recipient dest ∧
            h.Sent m now p sender recipient dest h' := by
  have hs : h.Sound := Reaches.sound (sound_new address clock d) hreach
  have hx : h.exchange.Numbered := Reaches.numbered (Exchange.numbered_empty d) hreach
  have hmem := (moduleOf_eq_ok hm).1
  obtain ⟨l, hl⟩ : ∃ l, h.exchange.lane? m.chain.id = some l := by
    refine Exchange.exists_lane? ?_
    rw [hs.ids_eq]
    exact List.mem_map_of_mem hmem
  refine ⟨l, hl, fun now caller p hsize => ⟨⟨?_, ?_⟩, fun h' hcall => ?_⟩⟩
  · rintro ⟨h', hcall⟩
    obtain ⟨sender, recipient, dest, hp, -⟩ := sent_of_call hs hx hm hl hnarrow hcall
    exact ⟨sender, recipient, dest, hp⟩
  · rintro ⟨sender, recipient, dest, hp⟩
    exact call_of_sendable hs hm hl hnarrow hsize hp now
  · exact sent_of_call hs hx hm hl hnarrow hcall

theorem reaches_manned {l : Ledger} (built : l.IsBuilt) : vacant.Reaches (manned l) := by
  have hrun := run_vacant l built []
  rw [run] at hrun
  exact hrun ▸ reaches_run vacant _

theorem writesIndexed_underway : (outpost funded).WritesIndexed
    "0x0000000000000000000000000000000000000001"
      ⟨"0x0000000000000000000000000000000000000002", "POLKADOT-2000", 3, 0, 0⟩ := by
  intro sender t envelope hsender hcheck hencode
  rw [parse_underway, Option.some.injEq] at hsender
  rw [check_underway, Except.ok.injEq] at hcheck
  subst hsender hcheck
  have hsame := Except.ok.inj (encode_underway.symm.trans hencode)
  rw [← hsame]
  exact isIndexed_underway

theorem transfer_sent_manned :
    ∃ h' sender recipient dest, (manned funded).call "POLKADOT-2000" ⟨0⟩
        (.transfer "0x0000000000000000000000000000000000000001"
          ⟨"0x0000000000000000000000000000000000000002", "POLKADOT-2000", 3, 0, 0⟩) =
          (.ok (), h') ∧
      (manned funded).Sent (outpost funded) ⟨0⟩
        ⟨"0x0000000000000000000000000000000000000002", "POLKADOT-2000", 3, 0, 0⟩ sender recipient
          dest h' := by
  have hmodule := moduleOf_manned isBuilt_funded.sound
  obtain ⟨l, hl, hsend⟩ := transfer_sent (reaches_manned isBuilt_funded) hmodule (by decide +kernel)
  obtain ⟨hiff, hsent⟩ := hsend ⟨0⟩ _ _ writesIndexed_underway
  rw [lane?_manned, Option.some.injEq] at hl
  have hsendable : (manned funded).Sendable (outpost funded) l
      "0x0000000000000000000000000000000000000001"
      ⟨"0x0000000000000000000000000000000000000002", "POLKADOT-2000", 3, 0, 0⟩
      ⟨1, by decide⟩ ⟨2, by decide⟩ (.parachain .polkadot 2000) := by
    have hregistered : ((manned funded).module? (Chain.parachain .polkadot 2000).id).isSome =
        true := by
      rw [← (sound_manned isBuilt_funded.sound).isSome_lane?]
      exact Option.isSome_of_eq_some (lane?_manned funded)
    exact ⟨parse_underway, by decide, by decide +kernel, by decide, parse_outpost, hregistered,
      by decide, by decide, by decide, by decide +kernel, hl ▸ rfl⟩
  obtain ⟨h', hcall⟩ := hiff.2 ⟨_, _, _, hsendable⟩
  obtain ⟨sender, recipient, dest, -, hdone⟩ := hsent h' hcall
  exact ⟨h', sender, recipient, dest, hcall, hdone⟩

end Host
end Interchain
