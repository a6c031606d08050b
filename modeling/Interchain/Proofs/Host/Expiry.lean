/-
Rounds of timeouts that fail.

A round that fails has moved the clock and dealt with what came before the request that stopped
it: that has timed out, and posts among it were refunded.  Nothing of it is taken back, so the
host is left as it was only if there was nothing to take back (`expire_fails`).

The run that shows it goes with fault injectors that are off.  They stay so through every call
(`Quiet.step`), and let everything pass, so that what is tracked after a few calls can be said
without a look at what was drawn.
-/
import Interchain.Proofs.Host.Rounds

namespace Interchain

/-! ## Fault injectors that are off -/

namespace Exchange

variable {x y : Exchange} {l : Lane} {source : String}

def Quiet (x : Exchange) : Prop := ∀ l ∈ x.lanes, l.faults.settings.isEnabled = false

theorem Quiet.updateLane (hq : x.Quiet) (id : String) {f : Lane → Lane}
    (hf : ∀ l ∈ x.lanes, (f l).faults.settings.isEnabled = false) : (x.updateLane id f).Quiet := by
  intro l hl
  obtain ⟨k, hk, rfl⟩ := List.mem_map.1 hl
  split
  · exact hf k hk
  · exact hq k hk

theorem Quiet.takeNonce (hq : x.Quiet) (l : Lane) : (x.takeNonce l).Quiet :=
  hq.updateLane l.chain.id (fun k hk => hq k hk)

theorem Quiet.passes (hq : x.Quiet) (hl : x.lane? source = some l) (kind : SubmissionKind) :
    (l.faults.settings.judge kind x.draws).1 = false := by
  rw [FaultSettings.judge_of_off (hq l (List.mem_of_find?_eq_some hl))]

theorem Quiet.passFaults (hq : x.Quiet) (hl : l ∈ x.lanes) (kind : SubmissionKind)
    (envelope : String) : (x.passFaults l kind envelope).2.Quiet := by
  have hoff : (l.faults.submit kind envelope x.draws).2.1.settings.isEnabled = false := by
    rw [SimulatedGateway.settings_submit, FaultSettings.judge_of_off (hq l hl)]
    exact hq l hl
  have hdrawn : Quiet { x with draws := (l.faults.submit kind envelope x.draws).2.2 } := hq
  exact hdrawn.updateLane l.chain.id (fun _ _ => hoff)

theorem Quiet.step (h : Step source x y) (hq : x.Quiet) : y.Quiet := by
  cases h with
  | counted | acknowledged => exact hq
  | passed hl kind envelope => exact hq.passFaults (List.mem_of_find?_eq_some hl) kind envelope
  | @post l | @get l => exact hq.takeNonce l

end Exchange

namespace Host

variable {h h' : Host} {m : AssetModule} {now : Timestamp} {n : Nat}

/-! ## Three requests on their way -/

/-- The only chain has this module and so much, all in one account. -/
structure IsOnly (h : Host) (m : AssetModule) (n : Nat) : Prop where
  modules : h.modules = [m]
  chain : m.chain = .parachain .polkadot 2000
  address : m.address = .small 187
  supply : m.ledger.supply = n
  balance : m.ledger.balance (.small 1) = n

theorem IsOnly.id_eq (ho : h.IsOnly m n) : m.chain.id = "POLKADOT-2000" := by
  rw [ho.chain, id_outpost]

theorem IsOnly.mem (ho : h.IsOnly m n) : m ∈ h.modules := ho.modules ▸ List.mem_cons_self

theorem IsOnly.module?_eq (ho : h.IsOnly m n) : h.module? "POLKADOT-2000" = some m := by
  rw [module?, ho.modules]
  exact List.find?_cons_of_pos (decide_eq_true ho.id_eq)

theorem IsOnly.balance_eq (ho : h.IsOnly m n) : h.balance "POLKADOT-2000" (.small 1) = n := by
  rw [Host.balance, ho.module?_eq]
  exact ho.balance

theorem IsOnly.supply_eq (ho : h.IsOnly m n) : h.supply "POLKADOT-2000" = n := by
  rw [Host.supply, ho.module?_eq]
  exact ho.supply

structure Holds (h : Host) (m : AssetModule) (n : Nat) : Prop where
  sound : h.Sound
  numbered : h.exchange.Numbered
  quiet : h.exchange.Quiet
  assets : h.IsOnly m n

theorem holds_manned : (manned funded).Holds (outpost funded) 5 := by
  refine ⟨sound_manned isBuilt_funded.sound, ?_, ?_, rfl, rfl, rfl, rfl, by decide⟩
  · exact Reaches.numbered (Exchange.numbered_empty _) (reaches_manned isBuilt_funded)
  · intro l hl
    rw [List.mem_singleton.1 hl]
    rfl

theorem Holds.moduleOf_eq (hh : h.Holds m n) : h.moduleOf "POLKADOT-2000" = .ok m := by
  have hmodule := hh.sound.moduleOf_id hh.assets.mem
  rwa [hh.assets.id_eq] at hmodule

/-- After a call there is still the one module, with what it holds then. -/
theorem Holds.called {k : Nat} (hh : h.Holds m n) {c : ModuleCall}
    (hcall : h.call "POLKADOT-2000" ⟨0⟩ c = (.ok (), h')) {l : Ledger} {es : List AssetEvent}
    (hmodules : h'.modules = (h.setModule { m with ledger := l, outbox := es }).modules)
    (hsupply : l.supply = k) (hbalance : l.balance (.small 1) = k) :
    h'.Holds { m with ledger := l, outbox := es } k := by
  have hsound := hh.sound.call "POLKADOT-2000" ⟨0⟩ c
  have hquiet := call_keeps Exchange.Quiet.step hh.quiet "POLKADOT-2000" ⟨0⟩ c
  have hnumbered := numbered_kept.moves hh.numbered (moves_of_call hcall)
  rw [hcall] at hsound hquiet
  refine ⟨hsound, hnumbered, hquiet, ?_, hh.assets.chain, hh.assets.address, hsupply, hbalance⟩
  rw [hmodules, setModule, hh.assets.modules]
  exact congrArg (· :: []) (if_pos rfl)

def sendTwo : TransferParams :=
  ⟨"0x0000000000000000000000000000000000000002", "POLKADOT-2000", 2, 10, 0⟩

def two : Payload := ⟨.small 2, .small 1, 2⟩

def sentPost (nonce : Nat) (body : String) : TrackedPost :=
  ⟨requestKey "POLKADOT-2000" nonce, ⟨"POLKADOT-2000", "POLKADOT-2000", nonce,
    Address.renderLower (.small 187), Address.renderLower (.small 187), 10, body, 0⟩,
    .dispatched, none⟩

theorem key_sentPost_zero (body : String) : (sentPost 0 body).key = "POLKADOT-2000/0" := by
  show requestKey "POLKADOT-2000" (0 : Nat) = _
  decide

def askedGet (nonce : Nat) : TrackedGet :=
  ⟨requestKey "POLKADOT-2000" nonce, ⟨"POLKADOT-2000", "POLKADOT-2001", nonce,
    Address.renderLower (.small 187), 10, ["0x"], 5, 0⟩, .dispatched⟩

theorem writesIndexed_sendTwo {m : AssetModule} (haddress : m.address = .small 187) :
    m.WritesIndexed "0x0000000000000000000000000000000000000001" sendTwo := by
  intro sender t envelope hsender hcheck hencode
  have hsent : sendTwo.check = .ok ⟨.small 2, .parachain .polkadot 2000, 2, 10, 0⟩ := by
    decide
  rw [parse_underway, Option.some.injEq] at hsender
  rw [hsent, Except.ok.injEq] at hcheck
  subst hsender hcheck
  obtain ⟨timeout, htimeout, gasLimit, hgasLimit, b, hb, rfl⟩ := PostEnvelope.encode_eq_ok.1 hencode
  obtain rfl : 10 = timeout := Int.ofNat.inj htimeout.1
  obtain rfl : 0 = gasLimit := Int.ofNat.inj hgasLimit.1
  rw [AssetModule.bytesArgument_moduleId (by rw [haddress]; decide), haddress,
    Except.ok.injEq] at hb
  subst hb
  have hsize : (Abi.encode (.tuple PostEnvelope.layout)
      (Utf8.encode (Chain.parachain .polkadot 2000).id, Bytes.ofNat 20 0xbb, two.encode,
        (10 : Nat), (0 : Nat), ())).length ≤ Abi.maxIndex := by decide +kernel
  exact Envelope.isIndexed_write.2 hsize

theorem Holds.sendable (hh : h.Holds m (n + 2)) {l : Lane}
    (hl : h.exchange.lane? m.chain.id = some l) :
    h.Sendable m l "0x0000000000000000000000000000000000000001" sendTwo (.small 1) (.small 2)
      (.parachain .polkadot 2000) := by
  refine ⟨parse_underway, by decide, by decide, by decide, parse_outpost, ?_, by decide,
    by decide, by decide, ?_, hh.quiet.passes hl .post⟩
  · rw [id_outpost, hh.assets.module?_eq]
    rfl
  · rw [hh.assets.balance]
    show (2 : Int) ≤ _
    omega

/-- Who has 2 left can send them, and has so much less when they are tracked. -/
theorem Holds.send (hh : h.Holds m (n + 2)) :
    ∃ h' m' body, h.call "POLKADOT-2000" ⟨0⟩
        (.transfer "0x0000000000000000000000000000000000000001" sendTwo) = (.ok (), h') ∧
      h'.Holds m' n ∧ Payload.decode body = .ok two ∧
      h'.exchange.posts =
        h.exchange.posts ++ [sentPost (h.exchange.nextNonce "POLKADOT-2000") body] ∧
      h'.exchange.gets = h.exchange.gets ∧
      h'.exchange.nextNonce "POLKADOT-2000" = h.exchange.nextNonce "POLKADOT-2000" + 1 := by
  have hmodule := hh.moduleOf_eq
  have hid := hh.assets.id_eq
  have haddress := hh.assets.address
  have hbalance := hh.assets.balance
  have hsupply := hh.assets.supply
  have hnarrow : m.address.IsNarrow := by
    rw [haddress]
    decide
  obtain ⟨l, hl⟩ := hh.sound.exists_lane hh.assets.mem
  have hsendable := hh.sendable hl
  obtain ⟨h', hcall⟩ := call_of_sendable hh.sound hmodule hl hnarrow
    (writesIndexed_sendTwo haddress) hsendable ⟨0⟩
  obtain ⟨sender, recipient, dest, hp, hsent⟩ :=
    sent_of_call hh.sound hh.numbered hmodule hl hnarrow hcall
  obtain rfl := Option.some.inj (hp.sender_eq.symm.trans hsendable.sender_eq)
  obtain rfl := Option.some.inj (hp.recipient_eq.symm.trans hsendable.recipient_eq)
  obtain rfl := Except.ok.inj (hp.dest_eq.symm.trans hsendable.dest_eq)
  obtain ⟨body, hdecode, hposts⟩ := hsent.post
  obtain ⟨ledger, hburnt, hdebited, -, hmodules⟩ := hsent.assets
  have hnonce := hsent.nonces "POLKADOT-2000"
  have hamount : sendTwo.amount = 2 := rfl
  rw [if_pos hid.symm] at hnonce
  refine ⟨h', _, body, hcall, hh.called hcall hmodules (by omega) (by omega), hdecode, ?_,
    hsent.gets, hnonce⟩
  rw [hposts, hid, id_outpost, AssetModule.moduleId, haddress]
  rfl

def askEmpty : GetParams := ⟨"POLKADOT-2001", ["0x"], 5, 10, 0⟩

theorem Holds.ask (hh : h.Holds m n) (hgets : h.exchange.gets = []) :
    ∃ h' m', h.call "POLKADOT-2000" ⟨0⟩
        (.dispatchGet "0x0000000000000000000000000000000000000001" askEmpty) = (.ok (), h') ∧
      h'.Holds m' n ∧ h'.exchange.posts = h.exchange.posts ∧
      h'.exchange.gets = [askedGet (h.exchange.nextNonce "POLKADOT-2000")] := by
  have hmodule := hh.moduleOf_eq
  obtain ⟨l, hl⟩ := hh.sound.exists_lane hh.assets.mem
  have hcheck : askEmpty.check = .ok ⟨.parachain .polkadot 2001, ["0x"], 5, 10, 0⟩ := by
    decide
  have hsize : Envelope.IsIndexed (Envelope.write GetEnvelope.layout (askedFields [])) :=
    Envelope.isIndexed_write.2 (by decide +kernel)
  obtain ⟨h', hcall, hposts, hplaced⟩ := dispatchGet_tracked ⟨0⟩ hmodule hl parse_underway hcheck
    (encode_asked (by decide)) hsize (hh.quiet.passes hl .get)
  have hname := hh.sound.moduleId_of_lane? hh.assets.mem hl
  have hsource := (Exchange.of_lane?_eq_some hl).2
  have hnonce := Exchange.nextNonce_of_lane? hl
  have hdest : (Chain.parachain .polkadot 2001).id = "POLKADOT-2001" := by decide
  rw [hh.assets.id_eq] at hsource hnonce
  rw [AssetModule.moduleId, hh.assets.address] at hname
  obtain ⟨m₀, hm₀, k, body, hcommit, hmodules⟩ := call_commits hcall
  rw [hmodule, Except.ok.injEq] at hm₀
  subst hm₀
  obtain ⟨m', hh'⟩ : ∃ m', h'.Holds m' n := by
    cases hcommit with
    | dispatchGet => exact ⟨_, hh.called hcall hmodules hh.assets.supply hh.assets.balance⟩
  refine ⟨h', m', hcall, hh', hposts, ?_⟩
  rw [hplaced, hgets, hnonce, Exchange.trackedGetOf, Exchange.getOf, hsource, hname, hdest]
  rfl

structure IsLaden (h : Host) (b₀ b₁ : String) : Prop where
  decode₀ : Payload.decode b₀ = .ok two
  decode₁ : Payload.decode b₁ = .ok two
  holds : ∃ m, h.Holds m 1
  posts : h.exchange.posts = [sentPost 0 b₀, sentPost 1 b₁]
  gets : h.exchange.gets = [askedGet 2]
  clock : h.clock = 0

/-- A host registers its only chain, and an account of it sends 2 twice. -/
def twice : Host :=
  vacant.run
    [(⟨0⟩, .register "POLKADOT-2000" "0x00000000000000000000000000000000000000bb" funded
        isBuilt_funded),
      (⟨0⟩, .transfer "POLKADOT-2000" "0x0000000000000000000000000000000000000001" sendTwo),
      (⟨0⟩, .transfer "POLKADOT-2000" "0x0000000000000000000000000000000000000001" sendTwo)]

/-- A host registers its only chain; an account of it sends 2 twice, and asks for the value of
the empty key. -/
def laden : Host :=
  vacant.run
    [(⟨0⟩, .register "POLKADOT-2000" "0x00000000000000000000000000000000000000bb" funded
        isBuilt_funded),
      (⟨0⟩, .transfer "POLKADOT-2000" "0x0000000000000000000000000000000000000001" sendTwo),
      (⟨0⟩, .transfer "POLKADOT-2000" "0x0000000000000000000000000000000000000001" sendTwo),
      (⟨0⟩, .dispatchGet "POLKADOT-2000" "0x0000000000000000000000000000000000000001" askEmpty)]

theorem reaches_laden : vacant.Reaches laden := by
  rw [laden]
  exact reaches_run vacant _

theorem snd_step_transfer {h' : Host} {now : Timestamp} {id caller : String} {p : TransferParams}
    (hcall : h.call id now (.transfer caller p) = (.ok (), h')) :
    (h.step now (.transfer id caller p)).2 = h' :=
  congrArg Prod.snd hcall

theorem snd_step_dispatchGet {h' : Host} {now : Timestamp} {id caller : String} {p : GetParams}
    (hcall : h.call id now (.dispatchGet caller p) = (.ok (), h')) :
    (h.step now (.dispatchGet id caller p)).2 = h' :=
  congrArg Prod.snd hcall

theorem twice_tracked : ∃ m b₀ b₁, twice.Holds m 1 ∧ Payload.decode b₀ = .ok two ∧
    Payload.decode b₁ = .ok two ∧ twice.exchange.posts = [sentPost 0 b₀, sentPost 1 b₁] ∧
    twice.exchange.gets = [] ∧ twice.exchange.nextNonce "POLKADOT-2000" = 2 ∧ twice.clock = 0 := by
  have hnonce : (manned funded).exchange.nextNonce "POLKADOT-2000" = 0 := by
    rw [← id_outpost]
    exact Exchange.nextNonce_of_lane? (lane?_manned funded)
  obtain ⟨h₁, m₁, b₀, hcall₁, hh₁, hdecode₀, hposts₁, hgets₁, hnonce₁⟩ := holds_manned.send (n := 3)
  obtain ⟨h₂, m₂, b₁, hcall₂, hh₂, hdecode₁, hposts₂, hgets₂, hnonce₂⟩ := hh₁.send (n := 1)
  have htwice : twice = h₂ := by
    rw [twice, run_vacant, run, snd_step_transfer hcall₁, run, snd_step_transfer hcall₂, run]
  rw [htwice]
  refine ⟨m₂, b₀, b₁, hh₂, hdecode₀, hdecode₁, ?_, hgets₂.trans hgets₁, ?_, ?_⟩
  · rw [hposts₂, hposts₁, hnonce₁, hnonce]
    rfl
  · rw [hnonce₂, hnonce₁, hnonce]
  · exact (clock_of_call hcall₂).trans (clock_of_call hcall₁)

theorem laden_tracked : ∃ b₀ b₁, laden.IsLaden b₀ b₁ := by
  obtain ⟨m, b₀, b₁, hh, hdecode₀, hdecode₁, hposts, hgets, hnonce, hclock⟩ := twice_tracked
  obtain ⟨h₃, m₃, hcall, hh₃, hposts₃, hgets₃⟩ := hh.ask hgets
  have hladen : laden = twice.run [(⟨0⟩, .dispatchGet "POLKADOT-2000"
      "0x0000000000000000000000000000000000000001" askEmpty)] := by
    rw [laden, twice, ← run_append, List.cons_append, List.cons_append, List.cons_append,
      List.nil_append]
  rw [hladen, run, snd_step_dispatchGet hcall, run]
  refine ⟨b₀, b₁, hdecode₀, hdecode₁, ⟨m₃, hh₃⟩, hposts₃.trans hposts, ?_, ?_⟩
  · rw [hgets₃, hnonce]
  · exact (clock_of_call hcall).trans hclock

theorem Same.isOnly (hsame : h.Same h') (ho : h.IsOnly m n) : h'.IsOnly m n :=
  { ho with modules := hsame.modules.trans ho.modules }

theorem IsOnly.at (ho : h.IsOnly m n) (clock : Int) : IsOnly { h with clock := clock } m n :=
  { ho with }

theorem IsOnly.not_blocks (ho : h.IsOnly m n) {body : String}
    (hdecode : Payload.decode body = .ok two) (hroom : n + 2 ≤ maxUint256) (nonce : Nat) :
    ¬ h.Blocks (.post (sentPost nonce body).request) := by
  rintro ⟨q, hq, hfull⟩
  obtain rfl : two = q := Except.ok.inj (hdecode.symm.trans hq)
  have hn : h.supply (sentPost nonce body).request.source = n := ho.supply_eq
  rw [hn] at hfull
  exact Nat.not_lt.2 hroom hfull

theorem IsOnly.timeOut (ho : h.IsOnly m n) {body : String} (hdecode : Payload.decode body = .ok two)
    (now : Timestamp) (key : String) (nonce : Nat) :
    (h.timeOut now (key, .post (sentPost nonce body).request)).IsOnly
      (m.timedOut now (.post (sentPost nonce body).request)) (n + 2) := by
  have hmodules : (h.timeOut now (key, .post (sentPost nonce body).request)).modules =
      [m.timedOut now (.post (sentPost nonce body).request)] := by
    show h.modules.map (fun m => if m.chain.id = "POLKADOT-2000" then
      m.timedOut now (.post (sentPost nonce body).request) else m) = _
    rw [ho.modules, List.map_singleton, if_pos ho.id_eq]
  have hself := Ledger.balance_apply_self m.ledger (m.ledger.raise (.small 1) 2)
  have hrefunded := AssetModule.timedOut_post (r := (sentPost nonce body).request) hdecode now m
  rw [hrefunded] at hmodules ⊢
  exact ⟨hmodules, ho.chain, ho.address, congrArg (· + 2) ho.supply,
    hself.trans (congrArg (· + 2) ho.balance)⟩

/-- A round that has both posts before it refunds them and goes on. -/
theorem IsOnly.refunds (ho : h.IsOnly m 1) {b₀ b₁ : String} (hdecode₀ : Payload.decode b₀ = .ok two)
    (hdecode₁ : Payload.decode b₁ = .ok two) {es : List (String × Request)}
    {r : Except Failure (List String)}
    (hround : Round now ((sentPost 0 b₀).keyed :: (sentPost 1 b₁).keyed :: es) h r h') :
    (∃ m', (h.timedOut now [(sentPost 0 b₀).keyed, (sentPost 1 b₁).keyed]).IsOnly m' 5) ∧
      ∃ r', Round now es (h.timedOut now [(sentPost 0 b₀).keyed, (sentPost 1 b₁).keyed]) r' h' ∧
        r = r'.map (fun ks => (sentPost 0 b₀).key :: (sentPost 1 b₁).key :: ks) := by
  have hfirst := ho.timeOut hdecode₀ now (sentPost 0 b₀).key 0
  have hsecond := hfirst.timeOut hdecode₁ now (sentPost 1 b₁).key 1
  refine ⟨⟨_, hsecond⟩, ?_⟩
  cases hround with
  | blocked hblocks => exact absurd hblocks (ho.not_blocks hdecode₀ (by decide) 0)
  | timedOut _ hround =>
    cases hround with
    | blocked hblocks => exact absurd hblocks (hfirst.not_blocks hdecode₁ (by decide) 1)
    | @timedOut _ _ _ _ r _ hround => exact ⟨r, hround, by cases r <;> rfl⟩

theorem IsLaden.due {b₀ b₁ : String} (hl : h.IsLaden b₀ b₁) :
    h.exchange.due 10 = [(sentPost 0 b₀).keyed, (sentPost 1 b₁).keyed, (askedGet 2).keyed] := by
  rw [Exchange.due, hl.posts, hl.gets]
  rfl

/-- At 10 both posts have been refunded when the get stops the round. -/
theorem IsLaden.expire {b₀ b₁ : String} (hl : h.IsLaden b₀ b₁) (hv : h.Served)
    (now : Timestamp) :
    ∃ f h', h.expire now 10 = (.error f, h') ∧ h'.clock = 10 ∧ (∃ m, h'.IsOnly m 5) ∧
      ((sentPost 0 b₀).key, .post (sentPost 0 b₀).request, .dispatched) ∈ h.exchange.requests ∧
      ((sentPost 0 b₀).key, .post (sentPost 0 b₀).request, .timedOut) ∈ h'.exchange.requests := by
  obtain ⟨m, hh⟩ := hl.holds
  have hx := hh.numbered
  have hempty : (askedGet 2).request.hasEmptyKey = true := by decide
  have hround : Round now (h.exchange.due 10) { h with clock := 10 } (h.expire now 10).1
      (h.expire now 10).2 := expire_round hh.sound hv (by rw [hl.clock]; decide) now
  have hawaits := awaits_due hx 10
  rw [hl.due] at hround hawaits
  have hdone : h.exchange.Awaits (flying [(sentPost 0 b₀).keyed, (sentPost 1 b₁).keyed]) :=
    awaits_of_append hawaits
  have hmem := hdone.2 _ List.mem_cons_self
  rcases hexpire : h.expire now 10 with ⟨r, h'⟩
  rw [hexpire] at hround
  obtain ⟨⟨m', ho⟩, r', hround, rfl⟩ := (hh.assets.at 10).refunds hl.decode₀ hl.decode₁ hround
  cases hround with
  | timedOut hfree => exact absurd hempty hfree
  | blocked _ hsame =>
    refine ⟨_, h', rfl, hsame.clock, ⟨m', hsame.isOnly ho⟩, hmem, ?_⟩
    have hrequests := requests_timedOut (h := { h with clock := 10 }) hx hdone now
    rw [hsame.exchange]
    refine hrequests ▸ List.mem_map.2 ⟨_, hmem, ?_⟩
    exact if_pos List.mem_cons_self

/-! ## Rounds that fail -/

/-- Whatever host is reached, an operation of it to time requests out fails in one of two
ways.  Either it was to turn the clock back, and nothing happens.  Or the clock is moved, and
of all that is due the requests before one that blocks the round have timed out: their status
says so, and their posts were refunded.  So it leaves the host as it was if and only if the
clock stood there already and the first request was the one to block. -/
theorem expire_fails {address : String} {clock₀ : Int} {d : Draws}
    (hreach : (Host.new address clock₀ d).Reaches h) {clock : Int} {f : Failure}
    (hfail : h.expire now clock = (.error f, h')) :
    (clock < h.clock ∧ h' = h) ∨
      h.clock ≤ clock ∧ ∃ done e rest, h.exchange.due clock = done ++ e :: rest ∧
        h'.Blocks e.2 ∧ ({ h with clock := clock }.timedOut now done).Same h' ∧
        h'.exchange.requests = h.exchange.requests.map (endedAmong done) ∧
        (h.Same h' ↔ clock = h.clock ∧ done = []) := by
  by_cases hback : clock < h.clock
  · rw [expire, if_pos hback] at hfail
    cases hfail
    exact Or.inl ⟨hback, rfl⟩
  · have hclock := Int.not_lt.1 hback
    have hs : h.Sound := Reaches.sound (sound_new address clock₀ d) hreach
    have hx : h.exchange.Numbered := Reaches.numbered (Exchange.numbered_empty d) hreach
    have hv : h.Served := Reaches.served (served_new address clock₀ d) hreach
    have hround := expire_round hs hv hclock now
    rw [hfail] at hround
    obtain ⟨done, e, rest, hdue, hsame, hblocks⟩ := hround.of_error
    have hawaits := awaits_due hx clock
    rw [hdue] at hawaits
    have hdone := awaits_of_append hawaits
    refine Or.inr ⟨hclock, done, e, rest, hdue, hblocks, hsame, ?_, ?_⟩
    · rw [hsame.exchange]
      exact requests_timedOut (h := { h with clock := clock }) hx hdone now
    · rw [← same_timedOut_iff hx hdone now clock]
      exact ⟨fun hkept => hkept.trans hsame.symm, fun hkept => hkept.trans hsame⟩

theorem served_laden : laden.Served := Reaches.served (served_new _ _ _) reaches_laden

theorem expire_fails_laden :
    ∃ f h' done e rest, laden.expire ⟨0⟩ 10 = (.error f, h') ∧
      laden.exchange.due 10 = done ++ e :: rest ∧ h'.Blocks e.2 ∧
      h'.exchange.requests = laden.exchange.requests.map (endedAmong done) := by
  obtain ⟨b₀, b₁, hl⟩ := laden_tracked
  obtain ⟨f, h', hfail, -⟩ := hl.expire served_laden ⟨0⟩
  rcases expire_fails reaches_laden hfail with
    ⟨hback, -⟩ | ⟨-, done, e, rest, hdue, hblocks, -, hrequests, -⟩
  · rw [hl.clock] at hback
    exact absurd hback (by decide)
  · exact ⟨f, h', done, e, rest, hfail, hdue, hblocks, hrequests⟩

/-- A failing operation can leave its mark: the clock has moved on, an account has back what it
sent, and what it had sent has timed out. -/
theorem expire_laden_leaves_mark :
    vacant.Reaches laden ∧ ∃ f h' r, laden.expire ⟨0⟩ 10 = (.error f, h') ∧
      laden.clock = 0 ∧ h'.clock = 10 ∧
      laden.balance "POLKADOT-2000" (.small 1) = 1 ∧
      h'.balance "POLKADOT-2000" (.small 1) = 5 ∧
      ("POLKADOT-2000/0", r, .dispatched) ∈ laden.exchange.requests ∧
      ("POLKADOT-2000/0", r, .timedOut) ∈ h'.exchange.requests := by
  obtain ⟨b₀, b₁, hl⟩ := laden_tracked
  obtain ⟨m, hh⟩ := hl.holds
  obtain ⟨f, h', hfail, hclock, ⟨m', ho⟩, hbefore, hafter⟩ := hl.expire served_laden ⟨0⟩
  rw [key_sentPost_zero] at hbefore hafter
  exact ⟨reaches_laden, f, h', _, hfail, hl.clock, hclock, hh.assets.balance_eq, ho.balance_eq,
    hbefore, hafter⟩

end Host
end Interchain
