/-
Answers that fail.

A post is answered in two calls of two modules, and an acknowledgement is written between them.
Still a delivery is all or nothing.  A destination that refuses a post has not got to the
exchange, and once it has accepted, the source cannot refuse: it takes any acknowledgement of a
request that carries a payload (`handBack_ok`), and every tracked post does.

What the exchange keeps in between is the acknowledgement of the one post that is being
delivered (`Answering`), and no step of a submission keeps any other (`Answering.step`).  Between
turns nothing is delivered, so an acknowledgement is kept only of a post that was answered, and
`answers_atomic` says that an answer that fails changes nothing.
-/
import Interchain.Proofs.Host.Expiry

namespace Interchain

/-! ## Acknowledgements in the exchange -/

namespace Exchange

variable {x y : Exchange} {source key : String} {key? : Option String}

/-- The post under this key is being delivered, if any.  An acknowledgement is kept only of it,
and of posts that were answered. -/
structure Answering (x : Exchange) (key? : Option String) : Prop where
  delivering : x.delivering = key?
  acknowledged : ∀ p ∈ x.posts, p.acknowledgement.isSome = true →
    p.status = .responded ∨ key? = some p.key

abbrev Rests (x : Exchange) : Prop := x.Answering none

theorem Answering.step (h : Step source x y) (hx : x.Answering key?) : y.Answering key? := by
  cases h with
  | counted | passed | get => exact ⟨hx.delivering, hx.acknowledged⟩
  | post _ e =>
    refine ⟨hx.delivering, fun p hp hsome => ?_⟩
    rcases mem_place hp with rfl | hp
    · cases hsome
    · exact hx.acknowledged p hp hsome
  | acknowledged hdelivering response =>
    refine ⟨hx.delivering, fun p hp hsome => ?_⟩
    obtain ⟨q, hq, rfl⟩ := List.mem_map.1 hp
    split
    · next hsame =>
      have hkey := hx.delivering.symm.trans hdelivering
      exact Or.inr (hkey.trans (congrArg some hsame.symm))
    · next hother =>
      rw [if_neg hother] at hsome
      exact hx.acknowledged q hq hsome

theorem Rests.answered (hx : x.Rests) :
    ∀ p ∈ x.posts, p.acknowledgement.isSome = true → p.status = .responded := by
  intro p hp hsome
  rcases hx.acknowledged p hp hsome with hresponded | hkey
  · exact hresponded
  · cases hkey

theorem Rests.begun (hx : x.Rests) (key : String) :
    Answering { x with delivering := some key } (some key) :=
  ⟨rfl, fun p hp hsome => Or.inl (hx.answered p hp hsome)⟩

theorem Answering.ended (hx : x.Answering (some key)) :
    Rests ({ x with delivering := none }.setPostStatus key .responded) := by
  refine ⟨rfl, fun p hp hsome => Or.inl ?_⟩
  obtain ⟨q, hq, rfl⟩ := List.mem_map.1 hp
  split
  · rfl
  · next hother =>
    rw [if_neg hother] at hsome
    rcases hx.acknowledged q hq hsome with hresponded | hkey
    · exact hresponded
    · exact absurd (Option.some.inj hkey).symm hother

theorem Rests.timeOut (hr : x.Rests) (hx : x.Numbered) {e : String × Request}
    (hmem : (e.1, e.2, .dispatched) ∈ x.requests) : (x.timeOut e).Rests := by
  rcases e with ⟨key, r | r⟩
  · refine ⟨hr.delivering, fun p hp hsome => Or.inl ?_⟩
    obtain ⟨q, hq, rfl⟩ := List.mem_map.1 hp
    split
    · next hkey =>
      rw [if_pos hkey] at hsome
      have hresponded := hr.answered q hq hsome
      have hlisted : q.entry ∈ x.requests := List.mem_append_left _ (List.mem_map_of_mem hq)
      have hflying : q.status = .dispatched :=
        congrArg (fun e => e.2.2) (hx.eq_of_key hlisted hmem hkey)
      rw [hresponded] at hflying
      cases hflying
    · next hother =>
      rw [if_neg hother] at hsome
      exact hr.answered q hq hsome
  · exact ⟨hr.delivering, hr.acknowledged⟩

end Exchange

namespace Host

open Exchange (Rests)

variable {h h' h₁ : Host} {now : Timestamp} {id key : String} {c : ModuleCall}

/-! ## Nothing is being delivered between turns -/

theorem rests_call (hr : h.exchange.Rests) (id : String) (now : Timestamp) (c : ModuleCall) :
    (h.call id now c).2.exchange.Rests := call_keeps Exchange.Answering.step hr id now c

theorem rests_handBack (hr : h.exchange.Rests) (now : Timestamp) (key : String) :
    (h.handBack now key).2.exchange.Rests := by
  rw [handBack]
  split
  · exact rests_call hr _ now _
  · exact hr
  · exact hr

/-- A post that its destination refuses leaves the host as it was. -/
theorem same_of_refused (hs : h.Sound) (hidle : h.exchange.delivering = none) {r : PostRequest}
    {f : Failure} (hcall : (h.setDelivering (some key)).call r.dest now
      (.onAccept h.address r) = (.error f, h₁)) : h.Same (h₁.setDelivering none) := by
  have hs₀ := hs.setDelivering (some key)
  have hsame := same_of_call_error hs₀ rfl hcall
  refine ⟨hsame.address, hsame.modules, ?_, hsame.clock⟩
  show { h₁.exchange with delivering := none } = h.exchange
  rw [hsame.exchange, ← hidle]
  rfl

theorem rests_deliver (hs : h.Sound) (hr : h.exchange.Rests) (now : Timestamp) (key : String) :
    (h.deliver now key).2.exchange.Rests := by
  rcases hdeliver : h.deliver now key with ⟨r, h'⟩
  cases delivery_of_deliver hdeliver with
  | declined f => exact hr
  | refused _ _ hcall => exact (same_of_refused hs hr.delivering hcall).exchange ▸ hr
  | @accepted p h₁ _ _ _ _ hcall hback =>
    have hbegun : (h.setDelivering (some key)).exchange.Answering (some key) := hr.begun key
    have hcalled := call_keeps Exchange.Answering.step hbegun p.request.dest now
      (.onAccept h.address p.request)
    rw [hcall] at hcalled
    have hended : ((h₁.setDelivering none).closed key .responded).exchange.Rests := hcalled.ended
    have hlast := rests_handBack hended now key
    rwa [hback] at hlast

theorem rests_respondToGet (hr : h.exchange.Rests) (now : Timestamp) (key : String)
    (values : List StorageValue) : (h.respondToGet now key values).2.exchange.Rests := by
  rw [respondToGet]
  split
  · exact hr
  · next g _ =>
    split
    · exact hr
    · have hcalled := rests_call hr g.request.source now
        (.onGetResponse h.address ⟨g.request, values⟩)
      split
      · next hcall =>
        rw [hcall] at hcalled
        exact hcalled
      · next hcall =>
        rw [hcall] at hcalled
        exact ⟨hcalled.delivering, hcalled.acknowledged⟩

theorem Round.rests {es : List (String × Request)} {r : Except Failure (List String)}
    (hround : Round now es h r h') (hr : h.exchange.Rests) (hx : h.exchange.Numbered)
    (ha : h.exchange.Awaits (flying es)) : h'.exchange.Rests := by
  induction hround with
  | done hsame => exact hsame.exchange ▸ hr
  | blocked _ hsame => exact hsame.exchange ▸ hr
  | @timedOut h h' e es r _ _ ih =>
    have hmem := ha.2 (e.1, e.2, .dispatched) List.mem_cons_self
    exact ih (hr.timeOut hx hmem) (numbered_timeOut hx e) (ha.statusSet (requests_timeOut hx hmem))

theorem rests_expire (hs : h.Sound) (hv : h.Served) (hx : h.exchange.Numbered)
    (hr : h.exchange.Rests) (now : Timestamp) (clock : Int) :
    (h.expire now clock).2.exchange.Rests := by
  by_cases hback : clock < h.clock
  · rw [expire, if_pos hback]
    exact hr
  · exact (expire_round hs hv (Int.not_lt.1 hback) now).rests hr hx (awaits_due hx clock)

theorem rests_orSame (hr : h.exchange.Rests) {x : Except Cause Host}
    (hx : ∀ h', x = .ok h' → h'.exchange.Rests) : (h.orSame x).2.exchange.Rests := by
  cases x with
  | error e => exact hr
  | ok h' => exact hx h' rfl

theorem rests_updateModule (hr : h.exchange.Rests) {f : AssetModule → AssetModule}
    (hu : h.updateModule id f = .ok h') : h'.exchange.Rests := by
  obtain ⟨m, -, hu⟩ := bind_eq_ok.1 hu
  cases hu
  exact hr

theorem rests_step (hs : h.Sound) (hv : h.Served) (hx : h.exchange.Numbered)
    (hr : h.exchange.Rests) (now : Timestamp) (a : Action) : (h.step now a).2.exchange.Rests := by
  cases a with
  | register id address l built =>
    refine rests_orSame hr (fun h' hx => ?_)
    obtain ⟨⟨name, h₁⟩, hreg, rfl⟩ := map_eq_ok.1 hx
    obtain ⟨m, -, -, -, -, hregistered⟩ := register_eq_ok hreg
    rw [hregistered]
    exact ⟨hr.delivering, hr.acknowledged⟩
  | transfer id caller p => exact rests_call hr id now _
  | dispatchGet id caller p => exact rests_call hr id now _
  | mint id caller account n => exact rests_call hr id now _
  | deliver key => exact rests_deliver hs hr now key
  | respondToGet key values => exact rests_respondToGet hr now key values
  | expire clock => exact rests_expire hs hv hx hr now clock
  | configure id command =>
    refine rests_orSame hr (fun h' hc => ?_)
    obtain ⟨l, -, hc⟩ := bind_eq_ok.1 hc
    cases hc
    exact ⟨hr.delivering, hr.acknowledged⟩
  | drainEvents id => exact rests_orSame hr (fun h' => rests_updateModule hr)
  | discardEvents id count => exact rests_orSame hr (fun h' => rests_updateModule hr)

theorem Reaches.rests {address : String} {clock : Int} {d : Draws}
    (hreach : (Host.new address clock d).Reaches h) : h.exchange.Rests := by
  induction hreach with
  | refl => exact ⟨rfl, fun p hp => absurd hp List.not_mem_nil⟩
  | tail hreach hturn ih =>
    have hs := Reaches.sound (sound_new address clock d) hreach
    have hv := Reaches.served (served_new address clock d) hreach
    have hx := Reaches.numbered (Exchange.numbered_empty d) hreach
    cases hturn with
    | step now a => exact rests_step hs hv hx ih now a
    | call id now c => exact rests_call ih id now c

/-! ## Answers -/

theorem same_of_deliver_error (hs : h.Sound) (hv : h.Served) (hidle : h.exchange.delivering = none)
    {f : Failure} (hfail : h.deliver now key = (.error f, h')) : h.Same h' := by
  cases delivery_of_deliver hfail with
  | declined f => exact .refl h
  | refused _ _ hcall => exact same_of_refused hs hidle hcall
  | accepted hpost hstatus hcall hback =>
    obtain ⟨h₂, hok⟩ := handBack_of_accepted hs hv hpost hstatus hcall
    rw [hback] at hok
    cases hok

theorem same_of_respondToGet_error (hs : h.Sound) {values : List StorageValue} {f : Failure}
    (hfail : h.respondToGet now key values = (.error f, h')) : h.Same h' := by
  rw [respondToGet] at hfail
  split at hfail
  · cases hfail
    exact .refl h
  · split at hfail
    · cases hfail
      exact .refl h
    · split at hfail
      · next hcall =>
        cases hfail
        exact same_of_call_error hs rfl hcall
      · cases hfail

theorem respondToGet_of_missing {values : List StorageValue} {cause : Cause}
    (hmissing : Site.ensureValues values = .error cause) (now : Timestamp) (key : String) :
    ∃ f h', h.respondToGet now key values = (.error f, h') := by
  rw [respondToGet]
  split
  · exact ⟨_, _, rfl⟩
  · next g _ =>
    split
    · exact ⟨_, _, rfl⟩
    · rcases hcall : h.call g.request.source now (.onGetResponse h.address ⟨g.request, values⟩)
        with ⟨f | _, h₁⟩
      · exact ⟨f, h₁, rfl⟩
      · obtain ⟨m, l, body, x, hcommit, -⟩ := commit_of_call hcall
        cases hcommit with
        | onGetResponse _ hvalues =>
          rw [hmissing] at hvalues
          cases hvalues

/-- Whatever host is reached, an answer that fails changes nothing, be it a delivery or the
answer to a get.  A delivery that its destination has accepted does not fail any more, and an
acknowledgement is kept only of a post that was answered. -/
theorem answers_atomic {address : String} {clock : Int} {d : Draws}
    (hreach : (Host.new address clock d).Reaches h) :
    (∀ now key f h', h.deliver now key = (.error f, h') → h.Same h') ∧
      (∀ now key values f h', h.respondToGet now key values = (.error f, h') → h.Same h') ∧
      (∀ now key p h₁, h.exchange.post? key = some p → p.status = .dispatched →
        hasExpired p.request.timeout h.clock = false →
        (h.setDelivering (some key)).call p.request.dest now (.onAccept h.address p.request) =
          (.ok (), h₁) →
        ∃ h', ((h₁.setDelivering none).closed key .responded).handBack now key = (.ok (), h') ∧
          h.deliver now key = (.ok (), h')) ∧
      ∀ p ∈ h.exchange.posts, p.acknowledgement.isSome = true → p.status = .responded := by
  have hs : h.Sound := Reaches.sound (sound_new address clock d) hreach
  have hv : h.Served := Reaches.served (served_new address clock d) hreach
  have hr := Reaches.rests hreach
  exact ⟨fun now key f h' => same_of_deliver_error hs hv hr.delivering,
    fun now key values f h' => same_of_respondToGet_error hs,
    fun now key p h₁ => deliver_of_accepted hs hv, hr.answered⟩

/-- The get of the laden host stays open when its value is missing. -/
theorem answers_atomic_laden :
    ∃ f h', laden.respondToGet ⟨0⟩ "POLKADOT-2000/2" [⟨"0x01", "0x"⟩] = (.error f, h') ∧
      laden.Same h' ∧ h'.exchange.get? "POLKADOT-2000/2" = some (askedGet 2) := by
  have hmissing : Site.ensureValues [⟨"0x01", "0x"⟩] = .error (.missingValue "0x01") := by
    decide
  have hkey : (askedGet 2).key = "POLKADOT-2000/2" := by
    show requestKey "POLKADOT-2000" (2 : Nat) = _
    decide
  obtain ⟨b₀, b₁, hl⟩ := laden_tracked
  obtain ⟨f, h', hfail⟩ := respondToGet_of_missing (h := laden) hmissing ⟨0⟩ "POLKADOT-2000/2"
  have hsame := (answers_atomic reaches_laden).2.1 _ _ _ _ _ hfail
  refine ⟨f, h', hfail, hsame, ?_⟩
  rw [hsame.exchange, Exchange.get?, hl.gets]
  exact List.find?_cons_of_pos (decide_eq_true hkey)

end Host
end Interchain
