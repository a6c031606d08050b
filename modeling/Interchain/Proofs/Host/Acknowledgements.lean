/-
Acknowledgements reach the source.

A destination that has accepted a post sends the request back along with its own address, and
the exchange takes that only if it reads the very request that it is delivering.  Between the two
stands a round trip through text, and what makes it go through is that requests come from text
themselves: whatever a host tracks was read from an envelope, and its source could write its own
name (`Reaches.legible`).  So a module at an address of 20 bytes finds the words for every
request that it accepts (`Site.exists_acknowledgement`), the exchange reads them as they were
meant, and only a fault injector is left to refuse them (`submit_acknowledgement`).

`deliver_acknowledged` follows an acknowledgement from there into the exchange and to the source,
which may be the destination again.
-/
import Interchain.Proofs.Envelope.Exact
import Interchain.Proofs.Host.Answers
import Interchain.Proofs.Host.Deliveries

namespace Interchain

/-! ## Requests that can be sent back -/

/-- A request that is read as it is written, and that can be written unless its nonce has
outgrown a word. -/
structure PostRequest.IsLegible (r : PostRequest) : Prop where
  lowered : r.lowered = r
  writable : r.nonce ≤ maxUint256 → r.IsWritable

namespace Exchange

variable {x : Exchange} {key : String} {r : PostRequest} {s : RequestStatus}

theorem mem_outline_posts :
    (key, r, s) ∈ x.outline.posts ↔ (key, .post r, s) ∈ x.requests := by
  constructor
  · intro h
    obtain ⟨p, hp, hentry⟩ := List.mem_map.1 h
    cases hentry
    exact List.mem_append_left _ (List.mem_map_of_mem (f := TrackedPost.entry) hp)
  · intro h
    rcases List.mem_append.1 h with hpost | hget
    · obtain ⟨p, hp, hentry⟩ := List.mem_map.1 hpost
      cases hentry
      exact List.mem_map_of_mem (f := fun p => (p.key, p.request, p.status)) hp
    · obtain ⟨g, -, hentry⟩ := List.mem_map.1 hget
      have hkind : Request.get g.request = .post r := congrArg (fun e => e.2.1) hentry
      cases hkind

namespace Outline

variable {o : Outline} {c : Lane.Card} {e : PostEnvelope} {envelope : String}

def Legible (o : Outline) : Prop := ∀ entry ∈ o.posts, entry.2.1.IsLegible

/-- What is read from an envelope can be sent back, if the module of its source has a name
that can be written. -/
theorem isLegible_requestOf {b : Bytes} (hname : c.moduleId = Hex.render b)
    (hdecode : PostEnvelope.decode envelope = .ok e) : (requestOf c e).IsLegible := by
  obtain ⟨m, body, hmodule, hbody, hread⟩ := PostEnvelope.read_of_decode hdecode
  obtain ⟨⟨-, -, -, htimeout, hgas, -⟩, -⟩ := Envelope.of_read hread
  have htimeout := Envelope.isWord_iff.1 htimeout
  have hgas := Envelope.isWord_iff.1 hgas
  have hrequest : requestOf c e = ⟨c.chain.id, e.dest, c.nextNonce, Hex.render b, Hex.render m,
      e.timeout, Hex.render body, e.gasLimit⟩ := by
    rw [requestOf, hname, hmodule, hbody]
  rw [hrequest]
  refine ⟨?_, fun hnonce => ⟨⟨Int.natCast_nonneg _, hnonce⟩, Hex.isByteText_render b,
    Hex.isByteText_render m, ⟨Int.natCast_nonneg _, Int.ofNat_le.2 htimeout⟩,
    Hex.isByteText_render body, ⟨Int.natCast_nonneg _, Int.ofNat_le.2 hgas⟩⟩⟩
  simp only [PostRequest.lowered, Hex.lowerText_render]

theorem Legible.track (ho : o.Legible) (hr : (requestOf c e).IsLegible) :
    (o.track c e).Legible := by
  intro entry hentry
  rcases Table.mem_put hentry with rfl | hold
  · exact hr
  · exact ho entry hold

end Outline
end Exchange

namespace Host

variable {h h' h₁ : Host} {m : AssetModule} {now : Timestamp} {id key : String} {c : ModuleCall}

theorem legible_call (hs : h.Sound) (hx : h.exchange.outline.Legible) (id : String)
    (now : Timestamp) (c : ModuleCall) : (h.call id now c).2.exchange.outline.Legible := by
  rcases hcall : h.call id now c with ⟨_ | _, h'⟩
  · exact (call_error hs hcall).outline ▸ hx
  · obtain ⟨m, hm, l, body, hcommit, -⟩ := call_commits hcall
    show h'.exchange.outline.Legible
    generalize h'.exchange = x at hcommit
    cases hcommit with
    | transfer _ _ _ _ _ hencode hsubmit =>
      obtain ⟨k, e, hlane, hsource, hdecode, -, hposts⟩ :=
        (Exchange.submit_outline (Gateway.ofReplies_eq_accepted.1 hsubmit)).of_post
      -- The module wrote its own name into the envelope, so that is the text of its bytes.
      obtain ⟨_, -, _, -, b, hb, -⟩ := PostEnvelope.encode_eq_ok.1 hencode
      have hnarrow : m.address.IsNarrow := by
        by_contra hwide
        rw [AssetModule.moduleId, Envelope.bytesArgument_of_wide hwide] at hb
        cases hb
      have hname := hs.moduleId_of_card (moduleOf_eq_ok hm).1 hlane hsource
      rw [AssetModule.moduleId, Address.renderLower_of_narrow hnarrow] at hname
      exact hposts ▸ hx.track (Exchange.Outline.isLegible_requestOf hname hdecode)
    | dispatchGet _ _ _ hsubmit =>
      exact (Exchange.submit_outline (Gateway.ofReplies_eq_accepted.1 hsubmit)).of_get ▸ hx
    | onAccept => exact outline_acknowledged m.chain.id m _ h.exchange ▸ hx
    | mint | onPostResponse | onGetResponse | onPostTimeout | onGetTimeout => exact hx

theorem Ends.legible (he : h.Ends h') (hn : h.exchange.Numbered)
    (hx : h.exchange.outline.Legible) : h'.exchange.outline.Legible := by
  rintro ⟨key, r, s⟩ hentry
  obtain ⟨s₀, hold⟩ := he.requests.asked hn.nodup (Exchange.mem_outline_posts.1 hentry)
  exact hx (key, r, s₀) (Exchange.mem_outline_posts.2 hold)

theorem Reaches.legible {address : String} {clock : Int} {d : Draws}
    (hreach : (Host.new address clock d).Reaches h) : h.exchange.outline.Legible := by
  induction hreach with
  | refl => exact fun entry hentry => absurd hentry List.not_mem_nil
  | tail hreach hturn ih =>
    have hs := Reaches.sound (sound_new address clock d) hreach
    have hx := Reaches.numbered (Exchange.numbered_empty d) hreach
    rcases hturn.cases hx with ⟨id, now, c, rfl⟩ | ⟨clock, -, hends⟩
    · exact legible_call hs ih id now c
    · exact hends.legible hx ih

end Host

/-! ## The words of an acknowledgement -/

/-- A module at an address of 20 bytes has words for an acknowledgement of any request that can
be sent back, and they are read as they were meant. -/
theorem Site.exists_acknowledgement {m : AssetModule} {r : PostRequest}
    (hnarrow : m.address.IsNarrow) (hr : r.IsLegible) (hnonce : r.nonce ≤ maxUint256) :
    ∃ envelope, acknowledgement m r = .ok envelope ∧
      (Envelope.IsIndexed envelope →
        ResponseEnvelope.decode envelope = .ok ⟨r, Acknowledgement.encode m.address⟩) := by
  obtain ⟨envelope, hack, hencode⟩ := acknowledgement_of_writable hnarrow (hr.writable hnonce)
  refine ⟨envelope, hack, fun hsize => ?_⟩
  have hread := ResponseEnvelope.decode_of_encode hencode hsize
  have hanswer : Hex.lowerText (Acknowledgement.encode m.address) =
    Acknowledgement.encode m.address := Hex.lowerText_render _
  rwa [hr.lowered, hanswer] at hread

namespace Exchange

variable {x : Exchange} {l : Lane} {source envelope : String}

theorem Rests.acknowledgement_eq (hr : x.Rests) {key : String} {p : TrackedPost}
    (hpost : x.post? key = some p) (hstatus : p.status = .dispatched) :
    p.acknowledgement = none := by
  cases hsome : p.acknowledgement with
  | none => rfl
  | some a =>
    have hresponded := hr.answered p (of_post?_eq_some hpost).1 (by rw [hsome]; rfl)
    rw [hstatus] at hresponded
    cases hresponded

theorem post?_updatePost {key : String} {p : TrackedPost} (hpost : x.post? key = some p)
    {f : TrackedPost → TrackedPost} (hf : ∀ p, (f p).key = p.key) :
    (x.updatePost key f).post? key = some (f p) := by
  have hfound : (x.updatePost key f).post? key =
      (x.post? key).map (fun p => if p.key = key then f p else p) :=
    find?_changed hf x.posts key key
  rw [hfound, hpost, Option.map_some, if_pos (of_post?_eq_some hpost).2]

/-- An acknowledgement of the post that is being delivered is refused only by the fault
injector of its lane, and is kept otherwise. -/
theorem submit_acknowledgement {key : String} {v : PostResponse} {p : TrackedPost}
    (hl : x.lane? source = some l) (hdecode : ResponseEnvelope.decode envelope = .ok v)
    (hkey : key = requestKey v.request.source v.request.nonce)
    (hdelivering : x.delivering = some key) (hpost : x.post? key = some p) :
    (submit source .response envelope x).1 =
        (if (l.faults.settings.judge .response x.draws).1 then
          .rejected .response (SimulatedGateway.rejection .response)
        else .accepted v.request.nonce) ∧
      (submit source .response envelope x).2.post? key = some { p with
        acknowledgement :=
          if (l.faults.settings.judge .response x.draws).1 then p.acknowledgement
          else some v.response } := by
  have hreply := fst_passFaults x l .response envelope
  have hposts : (x.passFaults l .response envelope).2.post? key = some p := hpost
  simp only [submit, hl, submitResponse, hdecode, hdelivering, ← hkey, if_true]
  rcases hfaults : x.passFaults l .response envelope with ⟨r, y⟩
  rw [hfaults] at hreply hposts
  generalize (l.faults.settings.judge .response x.draws).1 = fails at hreply ⊢
  cases fails with
  | true =>
    obtain rfl : r = .rejected .response (SimulatedGateway.rejection .response) := hreply
    exact ⟨rfl, hposts⟩
  | false =>
    obtain rfl : r = .accepted l.faults.nextNonce := hreply
    exact ⟨rfl, post?_updatePost hposts (fun _ => rfl)⟩

end Exchange

namespace Host

variable {h h' h₁ : Host} {m : AssetModule} {l : Lane} {p : TrackedPost} {now : Timestamp}
  {id key : String} {c : ModuleCall}

/-! ## Outboxes -/

def outbox (h : Host) (chain : String) : List AssetEvent :=
  match h.module? chain with
  | some m => m.outbox
  | none => []

theorem module?_setModule (h : Host) (m : AssetModule) (chain : String) :
    (h.setModule m).module? chain =
      (h.module? chain).map (fun n => if n.chain.id = m.chain.id then m else n) := by
  have hfound : (fun n : AssetModule => decide (n.chain.id = chain)) ∘
      (fun n => if n.chain.id = m.chain.id then m else n) =
        fun n => decide (n.chain.id = chain) := by
    funext n
    show decide ((if n.chain.id = m.chain.id then m else n).chain.id = chain) = _
    split
    · next hid => rw [hid]
    · rfl
  rw [module?, setModule, List.find?_map, hfound]
  rfl

theorem outbox_of_call (hs : h.Sound) (hm : h.moduleOf id = .ok m)
    (hcall : h.call id now c = (.ok (), h')) :
    ∃ l body x, Site.Commit (Exchange.gatewayOf m.chain.id) m h.exchange c l body x ∧
      h'.exchange = x ∧ ∀ chain, h'.outbox chain =
        h.outbox chain ++ if chain = m.chain.id then [m.event now body] else [] := by
  have hmem := (moduleOf_eq_ok hm).1
  obtain ⟨n, hn, l, body, hcommit, hmodules⟩ := call_commits hcall
  obtain rfl : m = n := Except.ok.inj (hm.symm.trans hn)
  refine ⟨l, body, _, hcommit, rfl, fun chain => ?_⟩
  have hset : h'.outbox chain =
      (h.setModule { m with
        ledger := l
        outbox := m.outbox ++ [m.event now body] }).outbox chain := by
    rw [outbox, outbox, module?, module?, hmodules]
  rw [hset, outbox, outbox, module?_setModule]
  cases hfound : h.module? chain with
  | none =>
    have hother : chain ≠ m.chain.id := by
      rintro rfl
      rw [hs.module?_id hmem] at hfound
      cases hfound
    rw [if_neg hother]
    rfl
  | some k =>
    obtain ⟨hk, hid⟩ := of_module?_eq_some hfound
    simp only [Option.map_some]
    by_cases hsame : chain = m.chain.id
    · obtain rfl := hs.eq_of_id hk hmem (hid.trans hsame)
      rw [if_pos hsame, if_pos rfl]
    · rw [if_neg hsame, if_neg (hid ▸ hsame), List.append_nil]

/-! ## Deliveries -/

def loses (h : Host) (l : Lane) : Bool := (l.faults.settings.judge .response h.exchange.draws).1

/-- What there is once a post was delivered.  Its destination has sent an acknowledgement, which
the exchange read as the request that it was delivering and took unless a fault injector refused
it.  What it took is stored and names the destination.  The destination has one event more, and
the source has one if the acknowledgement was taken. -/
structure Delivered (h : Host) (m : AssetModule) (l : Lane) (now : Timestamp) (key : String)
    (p : TrackedPost) (h' : Host) : Prop where
  submitted : ∃ envelope, Site.acknowledgement m p.request = .ok envelope ∧
    ResponseEnvelope.decode envelope = .ok ⟨p.request, Acknowledgement.encode m.address⟩ ∧
    (Exchange.submit m.chain.id .response envelope (h.setDelivering (some key)).exchange).1 =
      if h.loses l then .rejected .response (SimulatedGateway.rejection .response)
      else .accepted p.request.nonce
  post : h'.exchange.post? key = some { p with
    status := .responded
    acknowledgement := if h.loses l then none else some (Acknowledgement.encode m.address) }
  readable : Acknowledgement.decode (Acknowledgement.encode m.address) = .ok m.address
  outboxes : ∃ q, Payload.decode p.request.body = .ok q ∧ ∀ chain,
    h'.outbox chain = h.outbox chain ++
      (if chain = p.request.dest then [⟨p.request.dest, now, .balanceMinted q.sender.render
        q.recipient.render q.recipient.render q.amount .accept⟩] else []) ++
      if chain = p.request.source ∧ h.loses l = false then [⟨p.request.source, now,
        .responseReceived .post p.request.source p.request.dest p.request.nonce⟩] else []

/-- A destination that accepts a post has minted and has sent its acknowledgement. -/
theorem acknowledged_of_call (hs : h.Sound) {r : PostRequest} (hm : h.moduleOf r.dest = .ok m)
    (hdest : m.chain.id = r.dest)
    (hcall : h.call r.dest now (.onAccept h.address r) = (.ok (), h₁)) :
    h₁.exchange = Site.acknowledged (Exchange.gatewayOf r.dest) m r h.exchange ∧
      ∃ q, Payload.decode r.body = .ok q ∧ ∀ chain, h₁.outbox chain = h.outbox chain ++
        if chain = r.dest then [⟨r.dest, now, .balanceMinted q.sender.render q.recipient.render
          q.recipient.render q.amount .accept⟩] else [] := by
  obtain ⟨l, body, x, hcommit, hx, houtbox⟩ := outbox_of_call hs hm hcall
  cases hcommit with
  | @onAccept _ _ q move _ hdecode _ _ =>
    rw [hdest] at hx
    refine ⟨hx, q, hdecode, fun chain => ?_⟩
    rw [houtbox, AssetModule.event, hdest]

/-- A source that takes an acknowledgement has noted that, and the exchange is as it was. -/
theorem received_of_call (hs : h.Sound) {v : PostResponse}
    (hsource : v.request.source ∈ h.exchange.outline.ids)
    (hcall : h.call v.request.source now (.onPostResponse h.address v) = (.ok (), h')) :
    h'.exchange = h.exchange ∧ ∀ chain, h'.outbox chain = h.outbox chain ++
      if chain = v.request.source then [⟨v.request.source, now,
        .responseReceived .post v.request.source v.request.dest v.request.nonce⟩] else [] := by
  obtain ⟨m, -, hid, hm⟩ := hs.exists_moduleOf hsource
  obtain ⟨l, body, x, hcommit, hx, houtbox⟩ := outbox_of_call hs hm hcall
  cases hcommit with
  | onPostResponse =>
    refine ⟨hx, fun chain => ?_⟩
    rw [houtbox, AssetModule.event, hid]

/-- What is handed back is noted at the source, and nothing is if nothing was taken. -/
theorem handBack_noted (hs : h.Sound) (hpost : h.exchange.post? key = some p)
    (hback : h.handBack now key = (.ok (), h')) :
    h'.exchange = h.exchange ∧ ∀ chain, h'.outbox chain = h.outbox chain ++
      if chain = p.request.source ∧ p.acknowledgement.isSome = true then [⟨p.request.source, now,
        .responseReceived .post p.request.source p.request.dest p.request.nonce⟩] else [] := by
  have hget := Exchange.get?_of_post? hs.exchange hpost
  obtain ⟨k, r, s, _ | response⟩ := p
  · rw [handBack, hpost] at hback
    cases hback
    refine ⟨rfl, fun chain => ?_⟩
    rw [if_neg (fun h => Bool.false_ne_true h.2), List.append_nil]
  · rw [handBack, hpost] at hback
    have hsource := (hs.exchange.tracked hget).source
    obtain ⟨hexchange, houtbox⟩ := received_of_call (v := ⟨r, response⟩) hs hsource hback
    refine ⟨hexchange, fun chain => ?_⟩
    rw [houtbox]
    simp only [Option.isSome_some, and_true]

/-- A delivery that returns has brought its acknowledgement home. -/
theorem delivered_of_deliver (hs : h.Sound) (hx : h.exchange.Numbered) (hr : h.exchange.Rests)
    (hlegible : h.exchange.outline.Legible) (hpost : h.exchange.post? key = some p)
    (hm : h.moduleOf p.request.dest = .ok m) (hl : h.exchange.lane? p.request.dest = some l)
    (hnarrow : m.address.IsNarrow) (hnonce : p.request.nonce ≤ maxUint256)
    (hsize : ∀ envelope, Site.acknowledgement m p.request = .ok envelope →
      Envelope.IsIndexed envelope)
    (hdeliver : h.deliver now key = (.ok (), h')) : h.Delivered m l now key p h' := by
  have hmem := mem_of_post? hpost
  have hget := Exchange.get?_of_post? hs.exchange hpost
  have hdest := hs.id_of_moduleOf (hs.exchange.tracked hget).dest hm
  have hrequest : p.request.IsLegible := hlegible _ (Exchange.mem_outline_posts.2 hmem)
  obtain ⟨envelope, hack, hread⟩ := Site.exists_acknowledgement hnarrow hrequest hnonce
  have hdecode := hread (hsize envelope hack)
  have hs₀ := hs.setDelivering (some key)
  obtain ⟨hreply, hstored⟩ := Exchange.submit_acknowledgement
    (x := (h.setDelivering (some key)).exchange) hl hdecode (hx.keyed _ hmem) rfl hpost
  cases delivery_of_deliver hdeliver with
  | @accepted q h₁ _ _ hfound hstatus hcall hback =>
    obtain rfl : p = q := Option.some.inj (hpost.symm.trans hfound)
    obtain ⟨hexchange, q, hq, hminted⟩ := acknowledged_of_call hs₀ hm hdest hcall
    rw [Site.acknowledged, hack] at hexchange
    rw [hr.acknowledgement_eq hpost hstatus] at hstored
    -- The post is marked as answered and handed back on a host that is sound again.
    have hclosed : ((h₁.setDelivering none).closed key .responded).exchange.post? key =
        some { p with
          status := .responded
          acknowledgement :=
            if h.loses l then none else some (Acknowledgement.encode m.address) } := by
      have hkept := (congrArg (Exchange.post? · key) hexchange).trans hstored
      exact Exchange.post?_updatePost hkept (f := fun t => { t with status := .responded })
        (fun _ => rfl)
    have hs₁ := (accept_post hs₀ (get?_of_dispatched hs hpost hstatus) hcall).1
    have hs₂ := hs₁.setDelivering none
    obtain ⟨hlast, hnoted⟩ := handBack_noted hs₂ hclosed hback
    refine ⟨⟨envelope, hack, hdecode, hdest ▸ hreply⟩, hlast ▸ hclosed,
      Acknowledgement.decode_encode hnarrow, q, hq, fun chain => ?_⟩
    have hboth : h'.outbox chain = h₁.outbox chain ++ _ := hnoted chain
    have hfirst : h₁.outbox chain = h.outbox chain ++ _ := hminted chain
    rw [hboth, hfirst]
    cases h.loses l with
    | true => simp
    | false => simp

/-- Whatever host is reached and whatever post of it goes to a module at an address of 20 bytes,
under a nonce that fits a word: a delivery that returns has brought its acknowledgement home
unless the fault injector of the destination refused it, as long as the envelope is shorter than
2 ^ 53 bytes. -/
theorem deliver_acknowledged {address : String} {clock : Int} {d : Draws}
    (hreach : (Host.new address clock d).Reaches h) (hpost : h.exchange.post? key = some p)
    (hnonce : p.request.nonce ≤ maxUint256) (hm : h.moduleOf p.request.dest = .ok m)
    (hnarrow : m.address.IsNarrow)
    (hsize : ∀ envelope, Site.acknowledgement m p.request = .ok envelope →
      Envelope.IsIndexed envelope)
    (hdeliver : h.deliver now key = (.ok (), h')) :
    ∃ l, h.exchange.lane? p.request.dest = some l ∧ h.Delivered m l now key p h' := by
  have hs : h.Sound := Reaches.sound (sound_new address clock d) hreach
  have hx : h.exchange.Numbered := Reaches.numbered (Exchange.numbered_empty d) hreach
  have htracked := hs.exchange.tracked (Exchange.get?_of_post? hs.exchange hpost)
  obtain ⟨l, hl⟩ := Exchange.exists_lane? htracked.dest
  exact ⟨l, hl, delivered_of_deliver hs hx (Reaches.rests hreach) (Reaches.legible hreach) hpost hm
    hl hnarrow hnonce hsize hdeliver⟩

def thanksFields : Abi.Values ResponseEnvelope.layout :=
  ((Utf8.encode "POLKADOT-2000", Utf8.encode "POLKADOT-2000", (0 : Nat), Bytes.ofNat 20 187,
    Bytes.ofNat 20 187, (10 : Nat), two.encode, (0 : Nat), ()),
    Abi.encode (.tuple Acknowledgement.layout) (Acknowledgement.tag, .small 187, ()), ())

theorem acknowledgement_sentPost {body : String} (haddress : m.address = .small 187)
    (hbody : Payload.decode body = .ok two) :
    Site.acknowledgement m (sentPost 0 body).request =
      .ok (Envelope.write ResponseEnvelope.layout thanksFields) := by
  have hnarrow : Address.IsNarrow (.small 187) := by decide
  have hname : Envelope.bytesArgument (Address.renderLower (.small 187)) =
      .ok (Bytes.ofNat 20 187) := by
    rw [Address.renderLower_of_narrow hnarrow]
    exact Envelope.bytesArgument_render _
  have hanswer : Envelope.bytesArgument (Acknowledgement.encode (.small 187)) = .ok
      (Abi.encode (.tuple Acknowledgement.layout) (Acknowledgement.tag, .small 187, ())) :=
    Envelope.bytesArgument_render _
  have hencode : ResponseEnvelope.encode (sentPost 0 body).request
      (Acknowledgement.encode (.small 187)) =
        .ok (Envelope.write ResponseEnvelope.layout thanksFields) :=
    ResponseEnvelope.encode_eq_ok.2 ⟨0, Envelope.wordArgument_eq_ok.2 ⟨rfl, by decide⟩, _, hname,
      _, hname, 10, Envelope.wordArgument_eq_ok.2 ⟨rfl, by decide⟩, _,
      Payload.bytesArgument_of_decode hbody, 0, Envelope.wordArgument_eq_ok.2 ⟨rfl, by decide⟩, _,
      hanswer, rfl⟩
  rw [Site.acknowledgement, haddress]
  exact bind_eq_ok.2 ⟨_, Envelope.rereadArgument_eq_ok.2 ⟨rfl, hnarrow⟩, hencode⟩

/-- The first post of the laden host comes back to the chain that it is from. -/
theorem deliver_acknowledged_laden :
    ∃ h' m l b, laden.deliver ⟨0⟩ "POLKADOT-2000/0" = (.ok (), h') ∧ m.address = .small 187 ∧
      laden.loses l = false ∧ laden.Delivered m l ⟨0⟩ "POLKADOT-2000/0" (sentPost 0 b) h' := by
  obtain ⟨b₀, b₁, hladen⟩ := laden_tracked
  obtain ⟨m, hh⟩ := hladen.holds
  have hv : laden.Served := Reaches.served (served_new _ _ _) reaches_laden
  have hfits : laden.books.circulating ≤ maxUint256 := by
    have hsupply := hladen.circulatingSupply
    rw [circulatingSupply_eq hh.sound] at hsupply
    rw [Except.ok.inj hsupply]
    decide
  have hfresh : hasExpired (sentPost 0 b₀).request.timeout laden.clock = false := by
    rw [hladen.clock]
    rfl
  have hnonce : (sentPost 0 b₀).request.nonce ≤ maxUint256 := Int.natCast_nonneg _
  obtain ⟨h', hdeliver⟩ := deliver_ok hh.sound hv hfits hladen.post?_eq rfl hfresh ⟨0⟩
  have haddress := hh.assets.address
  have hnarrow : m.address.IsNarrow := haddress ▸ by decide
  have hindexed : Envelope.IsIndexed (Envelope.write ResponseEnvelope.layout thanksFields) :=
    Envelope.isIndexed_write.2 (by decide +kernel)
  obtain ⟨l, hl, hdelivered⟩ := deliver_acknowledged reaches_laden hladen.post?_eq hnonce
    hh.moduleOf_eq hnarrow (fun envelope henvelope => by
      rw [acknowledgement_sentPost haddress hladen.decode₀, Except.ok.injEq] at henvelope
      exact henvelope ▸ hindexed) hdeliver
  have htaken : laden.loses l = false := hh.quiet.passes hl .response
  exact ⟨h', m, l, b₀, hdeliver, haddress, htaken, hdelivered⟩

end Host
end Interchain
