/-
Posts in flight are delivered in any order.

What an observer sees of a host are its balances, its supplies and its requests (`Standing`).
A delivery adds what the post carries to one balance and one supply and marks the post as
answered, and two such steps commute (`Standing.answer_comm`): neither looks at a status or at
what was there before.  No step fails on the way, since a delivery leaves what circulates as it
is, and all that circulates fits a word (`deliver_answers`).

Fault injectors decide over acknowledgements only, of which a standing has nothing.  So two runs
through the same posts come out the same, in whatever order they take them and whatever their
fault injectors are (`deliverAll_perm`).
-/
import Interchain.Proofs.Host.Expiry

namespace Interchain

/-- What an observer sees of a host. -/
structure Standing where
  balance : String → Address → Nat
  supply : String → Nat
  requests : Table String (Request × RequestStatus)

namespace Standing

/-- Where the post under a key goes, and what it carries. -/
def arrival? (key : String) (t : Table String (Request × RequestStatus)) :
    Option (String × Payload) :=
  match Table.get? key t with
  | some (.post r, _) => (Payload.decode r.body).toOption.map (fun p => (r.dest, p))
  | some (.get _, _) | none => none

def credit (chain : String) (a : Address) : Option (String × Payload) → Nat
  | some (dest, p) => if dest = chain ∧ p.recipient = a then p.amount else 0
  | none => 0

def issue (chain : String) : Option (String × Payload) → Nat
  | some (dest, p) => if dest = chain then p.amount else 0
  | none => 0

def answer (s : Standing) (key : String) : Standing :=
  ⟨fun chain a => s.balance chain a + credit chain a (arrival? key s.requests),
    fun chain => s.supply chain + issue chain (arrival? key s.requests),
    s.requests.map (statusSet key .responded)⟩

variable {t : Table String (Request × RequestStatus)} {j k : String} {s u : RequestStatus}

theorem get?_map_statusSet (j k : String) (s : RequestStatus)
    (t : Table String (Request × RequestStatus)) :
    Table.get? j (t.map (statusSet k s)) =
      (Table.get? j t).map (fun v => if j = k then (v.1, s) else v) := by
  induction t with
  | nil => rfl
  | cons e t ih =>
    have hkey : (statusSet k s e).1 = e.1 := by
      rw [statusSet]
      split
      · rfl
      · rfl
    rw [List.map_cons, Table.get?, Table.get?, hkey]
    split
    · next hj =>
      rw [statusSet, hj]
      split
      · rfl
      · rfl
    · exact ih

/-- What arrives does not depend on who was answered. -/
theorem arrival?_map_statusSet (j k : String) (s : RequestStatus)
    (t : Table String (Request × RequestStatus)) :
    arrival? j (t.map (statusSet k s)) = arrival? j t := by
  rw [arrival?, arrival?, get?_map_statusSet]
  cases Table.get? j t with
  | none => rfl
  | some v =>
    obtain ⟨r, u⟩ := v
    rw [Option.map_some]
    by_cases hj : j = k
    · rw [if_pos hj]
      cases r with
      | post r => rfl
      | get r => rfl
    · rw [if_neg hj]

theorem statusSet_comm (j k : String) (s : RequestStatus) (e : String × Request × RequestStatus) :
    statusSet j s (statusSet k s e) = statusSet k s (statusSet j s e) := by
  obtain ⟨i, r, u⟩ := e
  by_cases hj : i = j
  · subst hj
    by_cases hk : i = k
    · simp only [statusSet, if_pos hk, if_true]
    · simp only [statusSet, if_neg hk, if_true]
  · by_cases hk : i = k
    · subst hk
      simp only [statusSet, if_neg hj, if_true]
    · simp only [statusSet, if_neg hj, if_neg hk]

theorem answer_comm (s : Standing) (j k : String) :
    (s.answer j).answer k = (s.answer k).answer j := by
  have hrequests : (s.requests.map (statusSet j .responded)).map (statusSet k .responded) =
      (s.requests.map (statusSet k .responded)).map (statusSet j .responded) := by
    rw [List.map_map, List.map_map]
    exact List.map_congr_left (fun e _ => statusSet_comm k j .responded e)
  simp only [answer, arrival?_map_statusSet, hrequests]
  refine (Standing.mk.injEq _ _ _ _ _ _).mpr ⟨?_, ?_, rfl⟩
  · funext chain a
    exact Nat.add_right_comm _ _ _
  · funext chain
    exact Nat.add_right_comm _ _ _

end Standing

namespace Host

variable {h h' h₁ : Host} {now : Timestamp} {key : String}

def standing (h : Host) : Standing := ⟨h.balance, h.supply, h.exchange.requests⟩

/-! ## One delivery -/

theorem supply_eq (hs : h.Sound) (chain : String) : h.supply chain = h.books.supply chain := by
  cases hm : h.module? chain with
  | some m =>
    obtain ⟨hmem, hid⟩ := of_module?_eq_some hm
    rw [← hid, hs.supply_eq hmem, Books.supply_of_get? (hs.get?_ledgers hmem)]
  | none =>
    rw [supply, hm, Books.supply, get?_ledgers_eq_none hm]
    rfl

theorem requests_handBack (hx : h.exchange.Numbered) (now : Timestamp) (key : String) :
    (h.handBack now key).2.exchange.requests = h.exchange.requests := by
  rw [handBack]
  split
  · exact requests_call hx rfl _ now
  · rfl
  · rfl

/-- A delivery that succeeds has marked its post as answered, and no other. -/
theorem requests_deliver (hx : h.exchange.Numbered) (hdeliver : h.deliver now key = (.ok (), h')) :
    h'.exchange.requests = h.exchange.requests.map (statusSet key .responded) := by
  cases delivery_of_deliver hdeliver with
  | @accepted p h₁ _ _ hpost hstatus hcall hback =>
    have hx₀ : (h.setDelivering (some key)).exchange.Numbered :=
      numbered_kept _ _ hx (.delivering _)
    have hcalled := requests_call (c := .onAccept h.address p.request) hx₀ rfl p.request.dest now
    rw [hcall] at hcalled
    have hsame : h₁.exchange.requests = h.exchange.requests := hcalled
    have hx₁ : (h₁.setDelivering none).exchange.Numbered :=
      numbered_kept.moves hx₀ ((moves_of_call hcall).tail (.delivering none))
    have hmem : (key, .post p.request, p.status) ∈ (h₁.setDelivering none).exchange.requests :=
      hsame.symm ▸ mem_of_post? hpost
    have hset := Exchange.requests_setPostStatus hx₁ hmem .responded
    have hlast := requests_handBack (numbered_kept _ _ hx₁ (.postStatus key .responded)) now key
    rw [hback] at hlast
    exact hlast.trans (hset.trans (congrArg (List.map _) hsame))

theorem books_deliver (hs : h.Sound) (hdeliver : h.deliver now key = (.ok (), h')) :
    ∃ p q l, h.exchange.post? key = some p ∧ Payload.decode p.request.body = .ok q ∧
      Table.get? p.request.dest h.books.ledgers = some l ∧
      h'.books = h.books.enter p.request.dest (l.apply (l.raise q.recipient q.amount)) key
        { transitOf (p.request, .dispatched) with status := .responded } := by
  have hs₀ := hs.setDelivering (some key)
  cases delivery_of_deliver hdeliver with
  | @accepted p h₁ _ _ hpost hstatus hcall hback =>
    have hget := get?_of_dispatched hs hpost hstatus
    obtain ⟨hsound, q, l, hdecode, hledger, -, hbooks⟩ := books_accept_post hs₀ hget hcall
    have hended := (Alike.refl (h₁.closed key .responded)).setDelivering none
    have hal := hended.trans (handBack_alike (hsound.alike hended) hback)
    exact ⟨p, q, l, hpost, hdecode, hledger, hal.books_eq.trans hbooks⟩

theorem arrival?_requests {p : TrackedPost} {q : Payload} (hx : h.exchange.Numbered)
    (hpost : h.exchange.post? key = some p) (hdecode : Payload.decode p.request.body = .ok q) :
    Standing.arrival? key h.exchange.requests = some (p.request.dest, q) := by
  rw [Standing.arrival?, Table.get?_of_mem hx.nodup (mem_of_post? hpost)]
  simp only [hdecode]
  rfl

/-- What a delivery that succeeds does to the standing of a host. -/
theorem standing_deliver (hs : h.Sound) (hx : h.exchange.Numbered)
    (hdeliver : h.deliver now key = (.ok (), h')) : h'.standing = h.standing.answer key := by
  obtain ⟨hs', -⟩ := deliver_evolves hs hdeliver
  obtain ⟨p, q, l, hpost, hdecode, hledger, hbooks⟩ := books_deliver hs hdeliver
  have harrival := arrival?_requests hx hpost hdecode
  refine (Standing.mk.injEq _ _ _ _ _ _).mpr ⟨?_, ?_, requests_deliver hx hdeliver⟩
  · funext chain a
    rw [balance_eq hs', hbooks]
    show _ = h.balance chain a + Standing.credit chain a (Standing.arrival? key h.exchange.requests)
    rw [harrival, balance_eq hs]
    exact Books.balance_raise hledger _ chain a
  · funext chain
    rw [supply_eq hs', hbooks]
    show _ = h.supply chain + Standing.issue chain (Standing.arrival? key h.exchange.requests)
    rw [harrival, supply_eq hs]
    exact Books.supply_raise hledger _ chain

/-! ## Deliveries one after the other -/

/-- Delivers posts one after the other, up to the first that is not delivered. -/
def deliverAll : List (Timestamp × String) → Host → Except Failure Unit × Host
  | [], h => (.ok (), h)
  | (now, key) :: es, h =>
    match h.deliver now key with
    | (.error f, h) => (.error f, h)
    | (.ok (), h) => deliverAll es h

def IsOpen (h : Host) (key : String) : Prop :=
  ∃ p, h.exchange.post? key = some p ∧ p.status = .dispatched ∧
    hasExpired p.request.timeout h.clock = false

/-- Nothing keeps a host from delivering: all that circulates fits a word. -/
structure Delivers (h : Host) : Prop where
  sound : h.Sound
  served : h.Served
  numbered : h.exchange.Numbered
  fits : h.books.circulating ≤ maxUint256

theorem exists_post?_of_mem (hx : h.exchange.Numbered) {r : PostRequest} {s : RequestStatus}
    (hmem : (key, .post r, s) ∈ h.exchange.requests) :
    ∃ p, h.exchange.post? key = some p ∧ p.request = r ∧ p.status = s := by
  obtain ⟨p, hp⟩ : ∃ p, h.exchange.post? key = some p := by
    rcases List.mem_append.1 hmem with hpost | hget
    · obtain ⟨p, hp, hentry⟩ := List.mem_map.1 hpost
      refine Option.isSome_iff_exists.1 (List.find?_isSome.2 ⟨p, hp, ?_⟩)
      exact decide_eq_true (congrArg Prod.fst hentry)
    · obtain ⟨g, -, hentry⟩ := List.mem_map.1 hget
      have hkind : Request.get g.request = .post r := congrArg (fun e => e.2.1) hentry
      cases hkind
  have hsame := hx.eq_of_key (mem_of_post? hp) hmem rfl
  cases hsame
  exact ⟨p, hp, rfl, rfl⟩

theorem IsOpen.of_requests {k : String} (hopen : h.IsOpen key) (hclock : h'.clock = h.clock)
    (hrequests : h'.exchange.requests = h.exchange.requests.map (statusSet k .responded))
    (hx : h'.exchange.Numbered) (hne : key ≠ k) : h'.IsOpen key := by
  obtain ⟨p, hpost, hstatus, hfresh⟩ := hopen
  have hmem := Settled.mem_statusSet_of_ne (s := .responded) (mem_of_post? hpost) hne
  rw [← hrequests] at hmem
  obtain ⟨q, hq, hrequest, hsame⟩ := exists_post?_of_mem hx hmem
  exact ⟨q, hq, hsame.trans hstatus, by rw [hrequest, hclock]; exact hfresh⟩

/-- An open post is delivered, and the host can go on delivering. -/
theorem Delivers.deliver (hd : h.Delivers) (hopen : h.IsOpen key) (now : Timestamp) :
    ∃ h', h.deliver now key = (.ok (), h') ∧ h'.Delivers ∧ h'.standing = h.standing.answer key ∧
      ∀ k, k ≠ key → h.IsOpen k → h'.IsOpen k := by
  obtain ⟨p, hpost, hstatus, hfresh⟩ := hopen
  obtain ⟨h', hdeliver⟩ := deliver_ok hd.sound hd.served hd.fits hpost hstatus hfresh now
  obtain ⟨hs', hevolves⟩ := deliver_evolves hd.sound hdeliver
  have hmoves := deliver_moves h now key
  have hclock := (deliver_ends hd.numbered now key).clock
  rw [hdeliver] at hmoves hclock
  have hx' := numbered_kept.moves hd.numbered hmoves
  have hfits : h'.books.circulating ≤ maxUint256 := by
    rw [hevolves.circulating_eq]
    exact hd.fits
  have hrequests := requests_deliver hd.numbered hdeliver
  exact ⟨h', hdeliver, ⟨hs', served_kept.moves hd.served hmoves, hx', hfits⟩,
    standing_deliver hd.sound hd.numbered hdeliver,
    fun k hne hk => hk.of_requests hclock hrequests hx' hne⟩

/-- Open posts are all delivered, and each of them does to the standing what it does alone. -/
theorem Delivers.deliverAll {es : List (Timestamp × String)} (hd : h.Delivers)
    (hnodup : (es.map Prod.snd).Nodup) (hopen : ∀ key ∈ es.map Prod.snd, h.IsOpen key) :
    ∃ h', deliverAll es h = (.ok (), h') ∧
      h'.standing = (es.map Prod.snd).foldl Standing.answer h.standing := by
  induction es generalizing h with
  | nil => exact ⟨h, rfl, rfl⟩
  | cons e es ih =>
    obtain ⟨now, key⟩ := e
    obtain ⟨hfresh, hrest⟩ := List.nodup_cons.1 hnodup
    obtain ⟨h₁, hdeliver, hd₁, hstanding, hkept⟩ :=
      hd.deliver (hopen key List.mem_cons_self) now
    -- a delivery ends its own post alone, and the keys are distinct
    have hopen₁ : ∀ k ∈ es.map Prod.snd, h₁.IsOpen k := by
      intro k hk
      refine hkept k (fun hkey => hfresh (hkey ▸ hk)) (hopen k (List.mem_cons_of_mem _ hk))
    obtain ⟨h', hall, hlast⟩ := ih hd₁ hrest hopen₁
    refine ⟨h', ?_, ?_⟩
    · rw [Host.deliverAll, hdeliver]
      exact hall
    · rw [hlast, hstanding]
      rfl

/-! ## Other fault injectors -/

/-- The same host with other fault injectors, and with other draws for them. -/
def refit (h : Host) (faults : String → SimulatedGateway) (d : Draws) : Host :=
  { h with exchange := { h.exchange with
      lanes := h.exchange.lanes.map (fun l => { l with faults := faults l.chain.id })
      draws := d } }

theorem exists_refit_eq (hs : h.Sound) : ∃ faults, h.refit faults h.exchange.draws = h := by
  refine ⟨fun id => ((h.exchange.lane? id).map Lane.faults).getD (.new false), ?_⟩
  have hlanes : h.exchange.lanes.map (fun l =>
      { l with faults := ((h.exchange.lane? l.chain.id).map Lane.faults).getD (.new false) }) =
        h.exchange.lanes := by
    conv => rhs; rw [← List.map_id h.exchange.lanes]
    refine List.map_congr_left (fun l hl => ?_)
    obtain ⟨k, hk⟩ := Exchange.exists_lane? (List.mem_map_of_mem (List.mem_map_of_mem hl))
    have hids : (h.exchange.lanes.map (fun l => l.chain.id)).Nodup := by
      have hnodup := hs.exchange.nodup_ids
      rwa [Exchange.Outline.ids, Exchange.outline, List.map_map] at hnodup
    have hsame : k = l := List.inj_on_of_nodup_map hids (List.mem_of_find?_eq_some hk) hl
      (Exchange.of_lane?_eq_some hk).2
    subst hsame
    have hk : h.exchange.lane? k.chain.id = some k := hk
    rw [hk]
    rfl
  rw [refit, hlanes]

theorem alike_refit (h : Host) (faults : String → SimulatedGateway) (d : Draws) :
    h.Alike (h.refit faults d) := by
  refine ⟨rfl, congrArg (Exchange.Outline.mk · _) ?_⟩
  show (h.exchange.lanes.map _).map Lane.card = h.exchange.lanes.map Lane.card
  rw [List.map_map]
  rfl

theorem nextNonce_refit (h : Host) (faults : String → SimulatedGateway) (d : Draws) :
    (h.refit faults d).exchange.nextNonce = h.exchange.nextNonce := by
  funext source
  have hlane : (h.refit faults d).exchange.lane? source =
      (h.exchange.lane? source).map (fun l => { l with faults := faults l.chain.id }) := by
    show (h.exchange.lanes.map _).find? _ = _
    rw [List.find?_map]
    rfl
  rw [Exchange.nextNonce, hlane, Option.map_map]
  rfl

theorem Delivers.refit (hd : h.Delivers) (faults : String → SimulatedGateway) (d : Draws) :
    (h.refit faults d).Delivers := by
  have hal := alike_refit h faults d
  refine ⟨hd.sound.alike hal, ⟨hd.served.hosted, ?_⟩, ?_, ?_⟩
  · exact hd.served.sourced.mono (fun id hid => hal.outline.symm ▸ hid) (fun g hg => ⟨g, hg, rfl⟩)
  · exact hd.numbered.of_eq rfl (nextNonce_refit h faults d)
  · rw [hal.books_eq]
    exact hd.fits

/-! ## The order -/

/-- Whatever host is reached with no more in circulation than fits a word, and whatever posts of
it are open: they are all delivered, in any order and at any times.  Two runs that differ in the
order, and in what fault injectors there are, end with the same balances, supplies and status of
every request. -/
theorem deliverAll_perm {address : String} {clock : Int} {d₀ : Draws}
    (hreach : (Host.new address clock d₀).Reaches h) {n : Nat}
    (hsupply : h.circulatingSupply = .ok n) (hfits : n ≤ maxUint256)
    {es es' : List (Timestamp × String)} (hnodup : (es.map Prod.snd).Nodup)
    (hopen : ∀ key ∈ es.map Prod.snd, h.IsOpen key)
    (hperm : (es.map Prod.snd).Perm (es'.map Prod.snd))
    (faults faults' : String → SimulatedGateway) (d d' : Draws) :
    ∃ h₁ h₂, deliverAll es (h.refit faults d) = (.ok (), h₁) ∧
      deliverAll es' (h.refit faults' d') = (.ok (), h₂) ∧
      (∀ chain a, h₁.balance chain a = h₂.balance chain a) ∧
      (∀ chain, h₁.supply chain = h₂.supply chain) ∧
      h₁.exchange.requests = h₂.exchange.requests := by
  have hs : h.Sound := Reaches.sound (sound_new address clock d₀) hreach
  have hd : h.Delivers := by
    refine ⟨hs, Reaches.served (served_new address clock d₀) hreach,
      Reaches.numbered (Exchange.numbered_empty d₀) hreach, ?_⟩
    rw [circulatingSupply_eq hs] at hsupply
    exact Except.ok.inj hsupply ▸ hfits
  obtain ⟨h₁, hall₁, hstanding₁⟩ := (hd.refit faults d).deliverAll hnodup hopen
  obtain ⟨h₂, hall₂, hstanding₂⟩ := (hd.refit faults' d').deliverAll (hperm.nodup_iff.1 hnodup)
    (fun key hkey => hopen key (hperm.mem_iff.2 hkey))
  have hsame : h₁.standing = h₂.standing := by
    rw [hstanding₁, hstanding₂]
    exact hperm.foldl_eq' (fun j _ k _ s => Standing.answer_comm s j k) _
  have hbalance : h₁.balance = h₂.balance := congrArg Standing.balance hsame
  have hsupplies : h₁.supply = h₂.supply := congrArg Standing.supply hsame
  exact ⟨h₁, h₂, hall₁, hall₂, fun chain a => by rw [hbalance], fun chain => by rw [hsupplies],
    congrArg Standing.requests hsame⟩

/-! ## Two posts on their way -/

section

variable {b₀ b₁ : String}

theorem IsLaden.circulatingSupply (hl : h.IsLaden b₀ b₁) : h.circulatingSupply = .ok 5 := by
  obtain ⟨m, hh⟩ := hl.holds
  have hledgers : ledgerSupply h.modules = 1 := by
    rw [hh.assets.modules, ledgerSupply, ledgerSupply, hh.assets.supply]
  have hflight : inFlightAmount h.exchange.posts = .ok 4 := by
    simp only [hl.posts, inFlightAmount, sentPost, hl.decode₀, hl.decode₁]
    rfl
  rw [Host.circulatingSupply, hledgers, hflight]
  rfl

theorem IsLaden.post?_eq (hl : h.IsLaden b₀ b₁) :
    h.exchange.post? "POLKADOT-2000/0" = some (sentPost 0 b₀) := by
  rw [Exchange.post?, hl.posts]
  exact List.find?_cons_of_pos (decide_eq_true (key_sentPost_zero b₀))

theorem IsLaden.isOpen (hl : h.IsLaden b₀ b₁) :
    h.IsOpen "POLKADOT-2000/0" ∧ h.IsOpen "POLKADOT-2000/1" := by
  have hsecond : (sentPost 1 b₁).key = "POLKADOT-2000/1" := by
    show requestKey "POLKADOT-2000" (1 : Nat) = _
    decide
  have hne : ¬ (sentPost 0 b₀).key = "POLKADOT-2000/1" := by
    rw [key_sentPost_zero]
    decide
  have hfresh : hasExpired 10 h.clock = false := by
    rw [hl.clock]
    decide
  refine ⟨⟨sentPost 0 b₀, hl.post?_eq, rfl, hfresh⟩, ⟨sentPost 1 b₁, ?_, rfl, hfresh⟩⟩
  rw [Exchange.post?, hl.posts, List.find?_cons_of_neg (by rwa [decide_eq_true_eq])]
  exact List.find?_cons_of_pos (decide_eq_true hsecond)

end

/-- The second run takes the posts the other way round, and no acknowledgement gets through. -/
theorem deliverAll_perm_laden :
    ∃ h₁ h₂, deliverAll [(⟨0⟩, "POLKADOT-2000/0"), (⟨1⟩, "POLKADOT-2000/1")] laden =
        (.ok (), h₁) ∧
      deliverAll [(⟨2⟩, "POLKADOT-2000/1"), (⟨3⟩, "POLKADOT-2000/0")]
        (laden.refit (fun _ => (SimulatedGateway.new false).rejectKind .response)
          laden.exchange.draws) = (.ok (), h₂) ∧
      (∀ chain a, h₁.balance chain a = h₂.balance chain a) ∧
      (∀ chain, h₁.supply chain = h₂.supply chain) ∧
      h₁.exchange.requests = h₂.exchange.requests := by
  obtain ⟨b₀, b₁, hl⟩ := laden_tracked
  obtain ⟨hfirst, hsecond⟩ := hl.isOpen
  obtain ⟨m, hh⟩ := hl.holds
  obtain ⟨faults, hown⟩ := exists_refit_eq hh.sound
  have hopen : ∀ key ∈ ([(⟨0⟩, "POLKADOT-2000/0"), (⟨1⟩, "POLKADOT-2000/1")] :
      List (Timestamp × String)).map Prod.snd, laden.IsOpen key := by
    intro key hkey
    rcases List.mem_cons.1 hkey with rfl | hkey
    · exact hfirst
    · rw [List.mem_singleton.1 hkey]
      exact hsecond
  have hperm : (([(⟨0⟩, "POLKADOT-2000/0"), (⟨1⟩, "POLKADOT-2000/1")] :
      List (Timestamp × String)).map Prod.snd).Perm
        (([(⟨2⟩, "POLKADOT-2000/1"), (⟨3⟩, "POLKADOT-2000/0")] :
          List (Timestamp × String)).map Prod.snd) := .swap _ _ _
  have hruns := deliverAll_perm reaches_laden hl.circulatingSupply (by decide) (by decide) hopen
    hperm faults (fun _ => (SimulatedGateway.new false).rejectKind .response)
    laden.exchange.draws laden.exchange.draws
  rw [hown] at hruns
  exact hruns

end Host
end Interchain
