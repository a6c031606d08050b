/-
What each call of a module does to its host.

A call that fails leaves its host as it was, and so does a call that only receives an
answer.  A transfer burns; a mint is a grant.  The calls that a host makes on delivery and
on timeout mint the payload of a request, on which the books then still have to be
changed.
-/
import Interchain.Proofs.Envelope.RoundTrip
import Interchain.Proofs.Host.Sound

namespace Interchain

open Relation (ReflTransGen)

namespace Host

variable {h h' : Host} {m : AssetModule} {now : Timestamp} {c : ModuleCall}

theorem outline_of_declines {source : String} {x x' : Exchange}
    (hx : (Exchange.gatewayOf source).Declines x x') : x'.outline = x.outline := by
  obtain rfl | ⟨kind, envelope, reply, hsubmit, hreply⟩ := Gateway.declines_ofReplies hx
  · rfl
  · exact (Exchange.submit_outline hsubmit).eq_of_declined hreply

/-- A call of a module is made at the site of the module, of which the host takes in what
the call leaves. -/
theorem callModule_site {r : Except Failure Unit} (hcall : h.callModule m now c = (r, h')) :
    ∃ s, Site.call (Exchange.gatewayOf m.chain.id) now c ⟨m, h.exchange, h.metrics⟩ = (r, s) ∧
      h' = { h with exchange := s.gateway, metrics := s.metrics }.setModule s.assets := by
  rw [callModule] at hcall
  rcases hsite : Site.call (Exchange.gatewayOf m.chain.id) now c ⟨m, h.exchange, h.metrics⟩
    with ⟨r', s⟩
  rw [hsite] at hcall
  cases hcall
  exact ⟨s, rfl, rfl⟩

theorem callModule_error (hs : h.Sound) (hm : m ∈ h.modules) {f : Failure}
    (hcall : h.callModule m now c = (.error f, h')) : h.Alike h' := by
  obtain ⟨s, hsite, rfl⟩ := callModule_site hcall
  obtain ⟨hassets, hdeclines⟩ := Site.call_error hsite
  have hmodules : (h.setModule m).modules = h.modules := by rw [setModule_of_mem hs hm]
  rw [hassets]
  exact ⟨congrArg (List.map AssetModule.bare) hmodules, outline_of_declines hdeclines⟩

/-- A call that returns has committed: the modules and the exchange are those of the commit. -/
theorem callModule_commits (hcall : h.callModule m now c = (.ok (), h')) :
    ∃ l body, Site.Commit (Exchange.gatewayOf m.chain.id) m h.exchange c l body h'.exchange ∧
      h'.modules = (h.setModule
        { m with ledger := l, outbox := m.outbox ++ [m.event now body] }).modules := by
  obtain ⟨s, hsite, rfl⟩ := callModule_site hcall
  obtain ⟨l, body, hcommit, hassets⟩ := Site.call_ok hsite
  refine ⟨l, body, hcommit, ?_⟩
  rw [hassets]
  rfl

theorem call_error (hs : h.Sound) {t : String} {f : Failure}
    (hcall : h.call t now c = (.error f, h')) : h.Alike h' := by
  rw [call] at hcall
  split at hcall
  · cases hcall
    exact Alike.refl h
  · next m hm => exact callModule_error hs (moduleOf_eq_ok hm).1 hcall

theorem call_commits {t : String} (hcall : h.call t now c = (.ok (), h')) :
    ∃ m, h.moduleOf t = .ok m ∧ ∃ l body,
      Site.Commit (Exchange.gatewayOf m.chain.id) m h.exchange c l body h'.exchange ∧
        h'.modules = (h.setModule
          { m with ledger := l, outbox := m.outbox ++ [m.event now body] }).modules := by
  rw [call] at hcall
  split at hcall
  · cases hcall
  · next m hm => exact ⟨m, hm, callModule_commits hcall⟩

/-- What a call that returns leaves is alike to the settlement of its ledger and exchange. -/
theorem call_ok {t : String} (hcall : h.call t now c = (.ok (), h')) :
    ∃ m, h.moduleOf t = .ok m ∧ ∃ l body x,
      Site.Commit (Exchange.gatewayOf m.chain.id) m h.exchange c l body x ∧
        (h.settle m l x).Alike h' := by
  obtain ⟨m, hm, l, body, hcommit, hmodules⟩ := call_commits hcall
  refine ⟨m, hm, l, body, h'.exchange, hcommit, ?_, rfl⟩
  rw [hmodules, setModule_bare, settle, setModule_bare]
  rfl

/-! ## Calls that leave the ledgers alone -/

theorem alike_settle (hs : h.Sound) (hm : m ∈ h.modules) {x : Exchange}
    (hx : x.outline = h.exchange.outline) : h.Alike (h.settle m m.ledger x) := by
  have hmodules : (h.setModule m).modules = h.modules := by rw [setModule_of_mem hs hm]
  exact ⟨congrArg (List.map AssetModule.bare) hmodules, hx⟩

theorem call_answer (hs : h.Sound) {t caller : String} {r : Except Failure Unit}
    (hc : (∃ p, c = .onPostResponse caller p) ∨ (∃ p, c = .onGetResponse caller p) ∨
      ∃ p, c = .onGetTimeout caller p)
    (hcall : h.call t now c = (r, h')) : h.Alike h' := by
  cases r with
  | error f => exact call_error hs hcall
  | ok u =>
    obtain ⟨m, hm, l, body, x, hcommit, hal⟩ := call_ok hcall
    have hmem := (moduleOf_eq_ok hm).1
    refine Alike.trans ?_ hal
    rcases hc with ⟨p, rfl⟩ | ⟨p, rfl⟩ | ⟨p, rfl⟩
    · cases hcommit
      exact alike_settle hs hmem rfl
    · cases hcommit
      exact alike_settle hs hmem rfl
    · cases hcommit
      exact alike_settle hs hmem rfl

/-! ## Dispatches -/

/-- A transfer burns and enters a transit, or changes nothing. -/
theorem call_transfer (hs : h.Sound) {t caller : String} {p : TransferParams}
    {r : Except Failure Unit} (hcall : h.call t now (.transfer caller p) = (r, h')) :
    h'.Sound ∧ h.books.Evolves none h'.books := by
  cases r with
  | error f =>
    have hal := call_error hs hcall
    exact ⟨hs.alike hal, Books.evolves_of_eq hal.books_eq⟩
  | ok u =>
    obtain ⟨m, hm, l, body, x, hcommit, hal⟩ := call_ok hcall
    have hmem := (moduleOf_eq_ok hm).1
    cases hcommit with
    | @transfer _ _ sender q move envelope nonce _ _ hcheck hsender hrecipient hmove hencode
        hsubmit =>
      obtain ⟨c, e, hlane, hsource, hdecode, hdest, hx⟩ :=
        (Exchange.submit_outline (Gateway.ofReplies_eq_accepted.1 hsubmit)).of_post
      obtain ⟨_, -, he⟩ := PostEnvelope.eq_of_decode hencode hdecode
      have hamount := TransferParams.amount_le_of_check hcheck
      have hbody : Payload.decode e.body = .ok ⟨q.recipient, sender, q.amount⟩ := by
        rw [he]
        exact Payload.decode_render ⟨hrecipient, hsender, hamount⟩
      have hsettled := hs.settle (x := x) hmem ((hs.ledgers m hmem).lower hmove)
        (by rw [hx]; exact hs.exchange.track hlane hdest ⟨_, hbody⟩)
        (by rw [hx]; exact h.exchange.outline.cards_bump c.chain.id)
      refine ⟨hsettled.alike hal, ?_⟩
      have hfresh : Table.get? (requestKey c.chain.id c.nextNonce) h.books.transits = none := by
        show Table.get? _ (Table.mapValues transitOf h.exchange.outline.posts) = none
        rw [Table.get?_mapValues, hs.exchange.fresh hlane]
        rfl
      have hledger := hs.get?_ledgers hmem
      rw [hal.books_eq, books_settle_put hs hmem _ (congrArg (·.posts) hx)]
      rw [← hsource] at hledger ⊢
      have hpayload : (transitOf (Exchange.Outline.requestOf c e, .dispatched)).payload =
          some ⟨q.recipient, sender, q.amount⟩ := payload_transitOf hbody
      exact .single (.burnt hfresh hpayload rfl hledger (hs.ledgers m hmem) hmove)

theorem call_dispatchGet (hs : h.Sound) {t caller : String} {p : GetParams}
    {r : Except Failure Unit} (hcall : h.call t now (.dispatchGet caller p) = (r, h')) :
    h'.Sound ∧ h'.books = h.books := by
  cases r with
  | error f =>
    have hal := call_error hs hcall
    exact ⟨hs.alike hal, hal.books_eq⟩
  | ok u =>
    obtain ⟨m, hm, l, body, x, hcommit, hal⟩ := call_ok hcall
    have hmem := (moduleOf_eq_ok hm).1
    cases hcommit with
    | dispatchGet _ _ _ hsubmit =>
      have hx := (Exchange.submit_outline (Gateway.ofReplies_eq_accepted.1 hsubmit)).of_get
      have hsettled := hs.settle (x := x) hmem (hs.ledgers m hmem)
        (by rw [hx]; exact hs.exchange.bump _) (by rw [hx]; exact h.exchange.outline.cards_bump _)
      refine ⟨hsettled.alike hal, ?_⟩
      rw [hal.books_eq, books_settle hs hmem, hx]
      show Books.mk _ h.books.transits = h.books
      rw [Table.put_get? (hs.get?_ledgers hmem)]

/-! ## Mints -/

theorem call_mint (hs : h.Sound) {t caller account : String} {n : Int}
    (hcall : h.call t now (.mint caller account n) = (.ok (), h')) :
    ∃ m a, h.moduleOf t = .ok m ∧ Address.parse? account = some a ∧ h'.Sound ∧
      h.books.Evolves (some (.genesis m.chain.id a n.toNat)) h'.books := by
  obtain ⟨m, hm, l, body, x, hcommit, hal⟩ := call_ok hcall
  have hmem := (moduleOf_eq_ok hm).1
  cases hcommit with
  | @mint _ _ _ a k move _ haccount hamount _ hmove =>
    obtain ⟨rfl, -⟩ := Ledger.amount_eq_ok.1 hamount
    have hsettled := hs.settle (x := h.exchange) hmem ((hs.ledgers m hmem).raise hmove)
      hs.exchange rfl
    refine ⟨m, a, hm, haccount, hsettled.alike hal, ?_⟩
    rw [hal.books_eq, books_settle hs hmem]
    exact .minted (hs.get?_ledgers hmem) hmove

theorem outline_acknowledged (source : String) (m : AssetModule) (r : PostRequest)
    (x : Exchange) :
    (Site.acknowledged (Exchange.gatewayOf source) m r x).outline = x.outline := by
  rw [Site.acknowledged]
  cases Site.acknowledgement m r with
  | error f => rfl
  | ok envelope =>
    have hsubmitted := Exchange.submit_outline
      (rfl : Exchange.submit source .response envelope x = _)
    exact hsubmitted.of_response

end Host
end Interchain
