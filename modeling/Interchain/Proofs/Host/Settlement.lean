/-
Funds in flight never fail to land.

Whatever is in flight is in circulation along with the supply of every chain
(`Books.room`).  So if what circulates fits a word, any chain can take the amount of any
post in flight, and no credit of it overflows (`Sound.creditAccount_eq_ok`).  Nothing else can
keep a post from its destination or its source: both are registered and take calls from
this host, and its body has a payload.  `post_settles` says that for every post in flight
after any run: until it expires it is delivered when that is asked for, and its source
takes a refund.
-/
import Interchain.Proofs.Host.Conservation
import Interchain.Proofs.Host.Progress

namespace Interchain

/-! ## Room in the ledgers -/

/-- The supply of a chain and a transit in flight are both in circulation. -/
theorem Books.room {b : Books} {chain key : String} {l : Ledger} {t : Transit}
    (hledger : Table.get? chain b.ledgers = some l)
    (htransit : Table.get? key b.transits = some t) (hstatus : t.status = .dispatched) :
    l.supply + t.amount ≤ b.circulating := by
  have hsupply := Table.le_sum_of_get? Ledger.supply hledger
  have hflight := Table.le_sum_of_get? Transit.inFlight htransit
  have hamount : t.inFlight = t.amount := if_pos hstatus
  rw [circulating]
  omega

namespace Host

variable {h : Host} {m : AssetModule} {key : String} {r : PostRequest} {p : Payload}

/-- Any chain can take the amount of any post in flight. -/
theorem Sound.creditAccount_eq_ok (hs : h.Sound) (hfits : h.books.circulating ≤ maxUint256)
    (hm : m ∈ h.modules) (hget : Table.get? key h.exchange.outline.posts = some (r, .dispatched))
    (hdecode : Payload.decode r.body = .ok p) (a : Address) :
    m.ledger.creditAccount a p.amount = .ok (m.ledger.raise a p.amount) := by
  have hamount : (transitOf (r, .dispatched)).amount = p.amount :=
    Books.amount_eq (payload_transitOf hdecode)
  have hroom := Books.room (hs.get?_ledgers hm) (get?_transits hget) rfl
  rw [hamount] at hroom
  exact (hs.ledgers m hm).creditAccount_eq_ok (Nat.le_trans hroom hfits) a

/-! ## Callbacks -/

theorem onAccept_ok (hs : h.Sound) (hv : h.Served) (hfits : h.books.circulating ≤ maxUint256)
    (hget : Table.get? key h.exchange.outline.posts = some (r, .dispatched)) (now : Timestamp) :
    ∃ h', h.call r.dest now (.onAccept h.address r) = (.ok (), h') := by
  have htracked := hs.exchange.tracked hget
  obtain ⟨p, hdecode⟩ := htracked.payload
  obtain ⟨m, hm, -, hmodule, hhost⟩ := hv.exists_module hs htracked.dest
  have hmove := hs.creditAccount_eq_ok hfits hm hget hdecode p.recipient
  obtain ⟨h', hcall, -⟩ := call_of_commit now hmodule
    (.onAccept hhost hdecode hmove (Site.untold_ofReplies _ _ _ _))
  exact ⟨h', hcall⟩

theorem onPostTimeout_ok (hs : h.Sound) (hv : h.Served) (hfits : h.books.circulating ≤ maxUint256)
    (hget : Table.get? key h.exchange.outline.posts = some (r, .dispatched)) (now : Timestamp) :
    ∃ h', h.call r.source now (.onPostTimeout h.address r) = (.ok (), h') := by
  have htracked := hs.exchange.tracked hget
  obtain ⟨p, hdecode⟩ := htracked.payload
  obtain ⟨m, hm, -, hmodule, hhost⟩ := hv.exists_module hs htracked.source
  have hmove := hs.creditAccount_eq_ok hfits hm hget hdecode p.sender
  obtain ⟨h', hcall, -⟩ := call_of_commit now hmodule (.onPostTimeout hhost hdecode hmove)
  exact ⟨h', hcall⟩

theorem handBack_ok (hs : h.Sound) (hv : h.Served) (now : Timestamp) (key : String) :
    ∃ h', h.handBack now key = (.ok (), h') := by
  rw [handBack]
  split
  · next k request status response hpost =>
    have htracked := hs.exchange.tracked (Exchange.get?_of_post? hs.exchange hpost)
    obtain ⟨p, hdecode⟩ := htracked.payload
    obtain ⟨m, -, -, hmodule, hhost⟩ := hv.exists_module hs htracked.source
    obtain ⟨h', hcall, -⟩ := call_of_commit (c := .onPostResponse h.address ⟨request, response⟩)
      now hmodule (.onPostResponse hhost hdecode)
    exact ⟨h', hcall⟩
  · exact ⟨h, rfl⟩
  · exact ⟨h, rfl⟩

/-! ## Delivery -/

theorem ensureAnswerable_ok {timeout : Int} (hopen : hasExpired timeout h.clock = false) :
    h.ensureAnswerable .dispatched timeout key = .ok () := by
  rw [ensureAnswerable, hopen]
  rfl

/-- Once its destination has accepted a post, its source takes what is handed back. -/
theorem handBack_of_accepted (hs : h.Sound) (hv : h.Served) {p : TrackedPost} {now : Timestamp}
    {h₁ : Host} (hpost : h.exchange.post? key = some p) (hstatus : p.status = .dispatched)
    (hcall : (h.setDelivering (some key)).call p.request.dest now
      (.onAccept h.address p.request) = (.ok (), h₁)) :
    ∃ h', ((h₁.setDelivering none).closed key .responded).handBack now key = (.ok (), h') := by
  have hs₀ := hs.setDelivering (some key)
  have hv₀ := hv.setDelivering (some key)
  -- What the destination has accepted stays accepted, so the rest runs on a sound host.
  obtain ⟨hs₁, -⟩ := accept_post hs₀ (get?_of_dispatched hs hpost hstatus) hcall
  have hv₁ := served_kept.moves hv₀
    (((moves_of_call hcall).tail (.delivering none)).tail (.postStatus key .responded))
  exact handBack_ok (hs₁.setDelivering none) hv₁ now key

theorem deliver_of_accepted (hs : h.Sound) (hv : h.Served) {p : TrackedPost} {now : Timestamp}
    {h₁ : Host} (hpost : h.exchange.post? key = some p) (hstatus : p.status = .dispatched)
    (hopen : hasExpired p.request.timeout h.clock = false)
    (hcall : (h.setDelivering (some key)).call p.request.dest now
      (.onAccept h.address p.request) = (.ok (), h₁)) :
    ∃ h', ((h₁.setDelivering none).closed key .responded).handBack now key = (.ok (), h') ∧
      h.deliver now key = (.ok (), h') := by
  obtain ⟨h', hback⟩ := handBack_of_accepted hs hv hpost hstatus hcall
  have htracked : h.trackedPost key = .ok p := by rw [trackedPost, hpost]
  refine ⟨h', hback, ?_⟩
  rw [deliver, htracked]
  simp only [hstatus, ensureAnswerable_ok hopen, hcall]
  exact hback

theorem deliver_ok (hs : h.Sound) (hv : h.Served) (hfits : h.books.circulating ≤ maxUint256)
    {p : TrackedPost} (hpost : h.exchange.post? key = some p) (hstatus : p.status = .dispatched)
    (hopen : hasExpired p.request.timeout h.clock = false) (now : Timestamp) :
    ∃ h', h.deliver now key = (.ok (), h') := by
  have hget := get?_of_dispatched hs hpost hstatus
  have hs₀ := hs.setDelivering (some key)
  have hv₀ := hv.setDelivering (some key)
  obtain ⟨h₁, hcall⟩ : ∃ h₁, (h.setDelivering (some key)).call p.request.dest now
      (.onAccept h.address p.request) = (.ok (), h₁) := onAccept_ok hs₀ hv₀ hfits hget now
  obtain ⟨h', -, hdeliver⟩ := deliver_of_accepted hs hv hpost hstatus hopen hcall
  exact ⟨h', hdeliver⟩

/-! ## A post on its way -/

def funded : Ledger := Ledger.empty.apply (Ledger.empty.raise ⟨1, by decide⟩ 5)

theorem isBuilt_funded : funded.IsBuilt := by
  have hcredit : Ledger.empty.credit "0x0000000000000000000000000000000000000001" 5 =
      .ok (Ledger.empty.raise ⟨1, by decide⟩ 5) := by decide
  exact .credit .new hcredit

/-- A host registers its only chain, and an account of it sends 3 to another one. -/
def underway : Host :=
  vacant.run
    [(⟨0⟩, .register "POLKADOT-2000" "0x00000000000000000000000000000000000000bb" funded
        isBuilt_funded),
      (⟨0⟩, .transfer "POLKADOT-2000" "0x0000000000000000000000000000000000000001"
        ⟨"0x0000000000000000000000000000000000000002", "POLKADOT-2000", 3, 0, 0⟩)]

def underwayFields : Abi.Values PostEnvelope.layout :=
  (Utf8.encode "POLKADOT-2000", List.replicate 19 0 ++ [0xbb],
    Payload.encode ⟨⟨2, by decide⟩, ⟨1, by decide⟩, 3⟩, (0 : Nat), (0 : Nat), ())

theorem run_transfer {now : Timestamp} {id caller : String} {p : TransferParams}
    {r' : Except Failure Unit} {h' : Host}
    (hcall : h.call id now (.transfer caller p) = (r', h')) :
    h.run [(now, .transfer id caller p)] = h' :=
  congrArg Prod.snd hcall

theorem circulatingSupply_transfer (hs : h.Sound) (now : Timestamp) (id caller : String)
    (p : TransferParams) :
    (h.run [(now, .transfer id caller p)]).circulatingSupply = h.circulatingSupply := by
  rcases hcall : h.call id now (.transfer caller p) with ⟨r, h'⟩
  obtain ⟨hsent, hevolves⟩ := call_transfer hs hcall
  rw [run_transfer hcall, circulatingSupply_eq hsent, circulatingSupply_eq hs,
    hevolves.circulating_eq]
  rfl

theorem circulatingSupply_underway : underway.circulatingSupply = .ok 5 := by
  have hs : (manned funded).Sound := sound_manned isBuilt_funded.sound
  rw [underway, run_vacant, circulatingSupply_transfer hs]
  rfl

theorem parse_underway : Address.parse? "0x0000000000000000000000000000000000000001" =
    some ⟨1, by decide⟩ := by decide

theorem check_underway : TransferParams.check
    ⟨"0x0000000000000000000000000000000000000002", "POLKADOT-2000", 3, 0, 0⟩ =
      .ok ⟨⟨2, by decide⟩, .parachain .polkadot 2000, 3, 0, 0⟩ := by decide

theorem encode_underway :
    PostEnvelope.encode (Chain.parachain .polkadot 2000).id (outpost funded).moduleId
      ⟨⟨2, by decide⟩, ⟨1, by decide⟩, 3⟩ 0 0 =
        .ok (Envelope.write PostEnvelope.layout underwayFields) := by
  have hmodule : Envelope.bytesArgument (outpost funded).moduleId =
      .ok (List.replicate 19 0 ++ [0xbb]) := by
    show Envelope.bytesArgument (Address.renderLower ⟨0xbb, by decide⟩) = _
    decide
  rw [id_outpost]
  exact PostEnvelope.encode_eq_ok.2 ⟨0, ⟨rfl, by decide⟩, 0, ⟨rfl, by decide⟩, _, hmodule, rfl⟩

theorem isIndexed_underway :
    Envelope.IsIndexed (Envelope.write PostEnvelope.layout underwayFields) :=
  Envelope.isIndexed_write.2 (by decide +kernel)

theorem underway_tracked :
    ∃ p, underway.exchange.post? "POLKADOT-2000/0" = some p ∧ p.status = .dispatched ∧
      p.request.timeout = 0 := by
  have hmove : (outpost funded).ledger.debitAccount ⟨1, by decide⟩ 3 =
      .ok (funded.lower ⟨1, by decide⟩ 3) := Ledger.debitAccount_eq_ok.2 ⟨rfl, by decide⟩
  have hlane := lane?_manned funded
  obtain ⟨h', e, hcall, htimeout, hposts⟩ := transfer_tracked ⟨0⟩
    (moduleOf_manned isBuilt_funded.sound) hlane (Option.isSome_of_eq_some hlane) parse_underway
    check_underway (by decide) (by decide) hmove encode_underway
    isIndexed_underway rfl
  have hunderway : underway = h' := by rw [underway, run_vacant, run_transfer hcall]
  rw [hunderway, ← requestKey_outpost funded]
  exact ⟨_, Exchange.post?_of_place hposts, rfl, congrArg Nat.cast htimeout⟩

/-! ## Posts in flight -/

/-- After any run with no more in circulation than fits a word, every post in flight is
delivered when that is asked for, unless it has expired, and its source takes a refund. -/
theorem post_settles (address : String) (clock : Int) (d : Draws)
    (actions : List (Timestamp × Action)) :
    let h := (Host.new address clock d).run actions
    ∀ n, h.circulatingSupply = .ok n → n ≤ maxUint256 →
      ∀ key p, h.exchange.post? key = some p → p.status = .dispatched →
        (hasExpired p.request.timeout h.clock = false →
          ∀ now, ∃ h', h.deliver now key = (.ok (), h')) ∧
        ∀ now, ∃ h',
          h.call p.request.source now (.onPostTimeout h.address p.request) = (.ok (), h') := by
  intro h n hsupply hfits key p hpost hstatus
  have hs : h.Sound := (sound_new address clock d).run actions
  have hv : h.Served := served_run address clock d actions
  have hcirculating : h.books.circulating ≤ maxUint256 := by
    rw [circulatingSupply_eq hs] at hsupply
    exact Except.ok.inj hsupply ▸ hfits
  refine ⟨fun hopen now => deliver_ok hs hv hcirculating hpost hstatus hopen now, fun now => ?_⟩
  have hget := Exchange.get?_of_post? hs.exchange hpost
  rw [hstatus] at hget
  exact onPostTimeout_ok hs hv hcirculating hget now

theorem post_settles_underway :
    underway.circulatingSupply = .ok 5 ∧
      ∃ p, underway.exchange.post? "POLKADOT-2000/0" = some p ∧ p.status = .dispatched ∧
        hasExpired p.request.timeout underway.clock = false ∧
        (∀ now, ∃ h', underway.deliver now "POLKADOT-2000/0" = (.ok (), h')) ∧
        ∀ now, ∃ h', underway.call p.request.source now
          (.onPostTimeout underway.address p.request) = (.ok (), h') := by
  obtain ⟨p, hpost, hstatus, htimeout⟩ := underway_tracked
  have hopen : hasExpired p.request.timeout underway.clock = false := by
    rw [htimeout]
    rfl
  obtain ⟨hdelivered, hrefunded⟩ := post_settles _ _ _ _ 5 circulatingSupply_underway
    (by decide) "POLKADOT-2000/0" p hpost hstatus
  exact ⟨circulatingSupply_underway, p, hpost, hstatus, hopen, hdelivered hopen, hrefunded⟩

end Host
end Interchain
