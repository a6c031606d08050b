/-
What is asked of a get is what travels.

A get takes the way of a transfer: its module checks it and writes it, the exchange reads it
and adds the source, its module and the next nonce (`of_submit_get`).  What is read is what was
checked (`GetEnvelope.decode_of_check`), so `Askable` says in terms of the call alone what it
takes and `Asked` what is there when it has returned.  No ledger is touched, and the chain that
is asked need not be one of the host.  `query_asked` puts the two together for every host that
anyone can reach.
-/
import Interchain.Proofs.Host.Transfer

namespace Interchain

/-- The envelope that a get comes to, if it comes to one, is shorter than 2 ^ 53 bytes. -/
def GetParams.WritesIndexed (p : GetParams) : Prop :=
  ∀ q envelope, p.check = .ok q →
    GetEnvelope.encode q.dest.id q.keys q.height q.timeout q.gasLimit = .ok envelope →
      Envelope.IsIndexed envelope

namespace Exchange

variable {x y : Exchange} {l : Lane} {source envelope : String} {nonce : Int}

/-- A get that was accepted could be read and passed the fault injector; it is tracked as it
was read, after all others. -/
theorem of_submit_get (hx : x.Numbered) (hl : x.lane? source = some l)
    (h : submit source .get envelope x = (.accepted nonce, y)) :
    ∃ e, GetEnvelope.decode envelope = .ok e ∧
      (l.faults.settings.judge .get x.draws).1 = false ∧
      y.gets = x.gets ++ [trackedGetOf l e] ∧ y.posts = x.posts ∧
      (∀ s, y.nextNonce s = if s = source then x.nextNonce s + 1 else x.nextNonce s) ∧
      ∀ s, s ≠ source → y.lane? s = x.lane? s := by
  have hkind : SubmissionKind.get ≠ .response := by decide
  have hfiles := submit_files hx hl hkind envelope
  rw [h] at hfiles
  obtain ⟨-, rfl⟩ := of_lane?_eq_some hl
  have hsubmit : x.submitGet l envelope = (.accepted nonce, y) := by
    rw [submit, hl] at h
    exact h
  rw [submitGet] at hsubmit
  split at hsubmit
  · cases hsubmit
  · next e hdecode =>
    have hposts := posts_passFaults x l .get envelope
    have hgets := gets_passFaults x l .get envelope
    have hlanes := fun s hne => lane?_passFaults_of_ne x (l := l) (s := s) hne .get envelope
    rcases hfaults : x.passFaults l .get envelope with ⟨r, z⟩
    rw [hfaults] at hsubmit hposts hgets hlanes
    obtain ⟨hidles, ⟨faults, hlane⟩, ⟨hpass, n, rfl⟩ | ⟨reason, rfl⟩⟩ := of_passFaults hl hfaults
    · have htracked : y = (z.trackGet l e).2 := (congrArg Prod.snd hsubmit).symm
      refine ⟨e, hdecode, hpass, ?_, ?_, ?_, fun s hne => ?_⟩
      · rw [htracked, gets_trackGet, gets_of_fresh (hidles.numbered hx) hlane e, hgets]
      · rw [htracked]
        exact hposts
      · cases hfiles with
        | tracked _ _ _ hnonces => exact hnonces
      · rw [htracked]
        exact (lane?_takeNonce_of_ne z hne).trans (hlanes s hne)
    · cases hsubmit

end Exchange

namespace Host

variable {h h' : Host} {m : AssetModule} {l : Lane} {id caller : String} {now : Timestamp}
  {p : GetParams} {dest : Chain}

structure Askable (h : Host) (l : Lane) (caller : String) (p : GetParams) (dest : Chain) :
    Prop where
  caller_isSome : (Address.parse? caller).isSome = true
  keys : ∀ k ∈ p.keys, Hex.IsByteText k
  dest_eq : Chain.parse p.dest = .ok dest
  height : 0 ≤ p.height ∧ p.height ≤ maxUint64
  timeout : 0 ≤ p.timeout ∧ p.timeout ≤ maxUint64
  gasLimit : 0 ≤ p.gasLimit ∧ p.gasLimit ≤ maxUint64
  passes : (l.faults.settings.judge .get h.exchange.draws).1 = false

/-- What there is once it was asked: one more get, which names the module and has the keys in
lower case, and one event that says the same of it.  All else of requests, lanes and modules
is as it was, ledgers included. -/
structure Asked (h : Host) (m : AssetModule) (now : Timestamp) (p : GetParams) (dest : Chain)
    (h' : Host) : Prop where
  get : h'.exchange.gets = h.exchange.gets ++
    [⟨requestKey m.chain.id (h.exchange.nextNonce m.chain.id),
      ⟨m.chain.id, dest.id, h.exchange.nextNonce m.chain.id, m.moduleId, p.timeout,
        p.keys.map Hex.lowerText, p.height, p.gasLimit⟩, .dispatched⟩]
  posts : h'.exchange.posts = h.exchange.posts
  nonces : ∀ s, h'.exchange.nextNonce s =
    if s = m.chain.id then h.exchange.nextNonce s + 1 else h.exchange.nextNonce s
  lanes : ∀ s, s ≠ m.chain.id → h'.exchange.lane? s = h.exchange.lane? s
  assets : h'.modules = (h.setModule { m with
    outbox := m.outbox ++ [⟨m.chain.id, now,
      .getDispatched dest.id (p.keys.map Hex.lowerText) p.height⟩] }).modules

/-- A get that returns could be asked, and was. -/
theorem asked_of_call (hs : h.Sound) (hx : h.exchange.Numbered) (hm : h.moduleOf id = .ok m)
    (hl : h.exchange.lane? m.chain.id = some l) (hsize : p.WritesIndexed)
    (hcall : h.call id now (.dispatchGet caller p) = (.ok (), h')) :
    ∃ dest, h.Askable l caller p dest ∧ h.Asked m now p dest h' := by
  have hmem := (moduleOf_eq_ok hm).1
  obtain ⟨n, hn, ledger, body, hcommit, hmodules⟩ := call_commits hcall
  rw [hm, Except.ok.injEq] at hn
  subst hn
  cases hcommit with
  | @dispatchGet _ _ a q envelope nonce _ hcaller hcheck hencode hsubmit =>
    obtain ⟨⟨hkeys, hlower⟩, hdest, ⟨hheight, hhmax⟩, ⟨htimeout, htmax⟩, hgas, hgmax⟩ :=
      GetParams.check_eq_ok.1 hcheck
    obtain ⟨e, hdecode, hpass, hgets, hposts, hnonces, hlanes⟩ :=
      Exchange.of_submit_get hx hl (Gateway.ofReplies_eq_accepted.1 hsubmit)
    rw [GetEnvelope.decode_of_check hcheck hencode (hsize q envelope hcheck hencode),
      Except.ok.injEq] at hdecode
    subst hdecode
    refine ⟨q.dest, ⟨by rw [hcaller]; rfl, hkeys, hdest, by omega, by omega, by omega, hpass⟩,
      ?_, hposts, hnonces, hlanes, ?_⟩
    · obtain ⟨-, hid⟩ := Exchange.of_lane?_eq_some hl
      rw [hgets, Exchange.nextNonce_of_lane? hl, ← hs.moduleId_of_lane? hmem hl, ← hid, htimeout,
        hlower, hheight, hgas]
      rfl
    · rw [hmodules, hlower, hheight]
      rfl

theorem call_of_askable (hm : h.moduleOf id = .ok m) (hl : h.exchange.lane? m.chain.id = some l)
    (hsize : p.WritesIndexed) (hp : h.Askable l caller p dest) (now : Timestamp) :
    ∃ h', h.call id now (.dispatchGet caller p) = (.ok (), h') := by
  obtain ⟨a, hcaller⟩ := Option.isSome_iff_exists.1 hp.caller_isSome
  have hheight := hp.height
  have htimeout := hp.timeout
  have hgas := hp.gasLimit
  have hcheck : p.check = .ok ⟨dest, p.keys.map Hex.lowerText, p.height.toNat, p.timeout.toNat,
      p.gasLimit.toNat⟩ :=
    GetParams.check_eq_ok.2 ⟨⟨hp.keys, rfl⟩, hp.dest_eq, by simp only; omega,
      by simp only; omega, by simp only; omega⟩
  obtain ⟨envelope, hencode⟩ := GetEnvelope.exists_encode_of_check hcheck
  obtain ⟨h', hcall, -⟩ := dispatchGet_tracked now hm hl hcaller hcheck hencode
    (hsize _ _ hcheck hencode) hp.passes
  exact ⟨h', hcall⟩

/-- Whatever host is reached and whatever chain of it is to ask: a get returns if and only if
it can be asked, as long as its envelope is shorter than 2 ^ 53 bytes; and one that returns was
asked as it was given. -/
theorem query_asked {address : String} {clock : Int} {d : Draws}
    (hreach : (Host.new address clock d).Reaches h) (hm : h.moduleOf id = .ok m) :
    ∃ l, h.exchange.lane? m.chain.id = some l ∧ ∀ now caller p, p.WritesIndexed →
      ((∃ h', h.call id now (.dispatchGet caller p) = (.ok (), h')) ↔
        ∃ dest, h.Askable l caller p dest) ∧
      ∀ h', h.call id now (.dispatchGet caller p) = (.ok (), h') →
        ∃ dest, h.Askable l caller p dest ∧ h.Asked m now p dest h' := by
  have hs : h.Sound := Reaches.sound (sound_new address clock d) hreach
  have hx : h.exchange.Numbered := Reaches.numbered (Exchange.numbered_empty d) hreach
  obtain ⟨l, hl⟩ := hs.exists_lane (moduleOf_eq_ok hm).1
  refine ⟨l, hl, fun now caller p hsize => ⟨⟨?_, ?_⟩, fun h' hcall => ?_⟩⟩
  · rintro ⟨h', hcall⟩
    obtain ⟨dest, hp, -⟩ := asked_of_call hs hx hm hl hsize hcall
    exact ⟨dest, hp⟩
  · rintro ⟨dest, hp⟩
    exact call_of_askable hm hl hsize hp now
  · exact asked_of_call hs hx hm hl hsize hcall

def askCapital : GetParams := ⟨"POLKADOT-2001", ["0xAB"], 5, 10, 0⟩

theorem check_askCapital :
    askCapital.check = .ok ⟨.parachain .polkadot 2001, ["0xab"], 5, 10, 0⟩ := by decide

theorem writesIndexed_askCapital : askCapital.WritesIndexed := by
  intro q envelope hcheck hencode
  rw [check_askCapital, Except.ok.injEq] at hcheck
  subst hcheck
  have hkey : Envelope.bytesArgument "0xab" = .ok [0xab] := by rfl
  have hsame := Except.ok.inj ((encode_asked hkey).symm.trans hencode)
  rw [← hsame]
  exact Envelope.isIndexed_write.2 (by decide +kernel)

theorem query_asked_manned :
    ∃ h' dest, (manned funded).call "POLKADOT-2000" ⟨0⟩
        (.dispatchGet "0x0000000000000000000000000000000000000001" askCapital) = (.ok (), h') ∧
      (manned funded).Asked (outpost funded) ⟨0⟩ askCapital dest h' := by
  have hmodule := moduleOf_manned isBuilt_funded.sound
  obtain ⟨l, hl, hask⟩ := query_asked (reaches_manned isBuilt_funded) hmodule
  obtain ⟨hiff, hasked⟩ := hask ⟨0⟩ "0x0000000000000000000000000000000000000001" _
    writesIndexed_askCapital
  rw [lane?_manned, Option.some.injEq] at hl
  have hdest : Chain.parse "POLKADOT-2001" = .ok (.parachain .polkadot 2001) := by rfl
  have haskable : (manned funded).Askable l "0x0000000000000000000000000000000000000001"
      askCapital (.parachain .polkadot 2001) := by
    exact ⟨by rw [parse_underway]; rfl, by decide, hdest, by decide, by decide, by decide,
      hl ▸ rfl⟩
  obtain ⟨h', hcall⟩ := hiff.2 ⟨_, haskable⟩
  obtain ⟨dest, -, hdone⟩ := hasked h' hcall
  exact ⟨h', dest, hcall, hdone⟩

end Host
end Interchain
