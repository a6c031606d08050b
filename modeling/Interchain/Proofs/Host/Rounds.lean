/-
Rounds of timeouts, request by request.

A round times out what is due one request after the other, posts before gets, and ends at the
first whose source does not take it (`Round`).  That is a post whose refund would not fit the
supply of its source, or a get with an empty key (`Host.Blocks`).  `expire_round` says that
this is all that an operation of the host does once it has moved the clock, by induction on
the requests that are still before it.  What a round has dealt with when it ends is a first
part of what was due, and of every request it says what has become of it
(`requests_timedOut`).
-/
import Interchain.Proofs.Host.Transfer

namespace Interchain

def TrackedPost.keyed (p : TrackedPost) : String × Request := (p.key, .post p.request)

def TrackedGet.keyed (g : TrackedGet) : String × Request := (g.key, .get g.request)

instance (p : TrackedPost) (clock : Int) : Decidable (p.IsDue clock) :=
  inferInstanceAs (Decidable (_ ∧ _))

instance (g : TrackedGet) (clock : Int) : Decidable (g.IsDue clock) :=
  inferInstanceAs (Decidable (_ ∧ _))

def AssetModule.timedOut (now : Timestamp) (m : AssetModule) : Request → AssetModule
  | .post r =>
    match Payload.decode r.body with
    | .ok p => { m with
        ledger := m.ledger.apply (m.ledger.raise p.sender p.amount)
        outbox := m.outbox ++ [m.event now (.balanceMinted p.sender.render p.recipient.render
          p.sender.render p.amount .timeout)] }
    | .error _ => m
  | .get r => { m with
      outbox := m.outbox ++ [m.event now (.timeoutReceived r.source r.dest r.nonce)] }

theorem AssetModule.timedOut_post {r : PostRequest} {p : Payload}
    (hdecode : Payload.decode r.body = .ok p) (now : Timestamp) (m : AssetModule) :
    m.timedOut now (.post r) = { m with
      ledger := m.ledger.apply (m.ledger.raise p.sender p.amount)
      outbox := m.outbox ++ [m.event now (.balanceMinted p.sender.render p.recipient.render
        p.sender.render p.amount .timeout)] } := by
  rw [timedOut, hdecode]

theorem AssetModule.chain_timedOut (now : Timestamp) (m : AssetModule) (r : Request) :
    (m.timedOut now r).chain = m.chain := by
  cases r with
  | post r =>
    rw [timedOut]
    split
    · rfl
    · rfl
  | get r => rfl

namespace Exchange

/-- The requests in flight whose deadline a clock has reached, posts before gets. -/
def due (x : Exchange) (clock : Int) : List (String × Request) :=
  (x.posts.filter (fun p => p.IsDue clock)).map TrackedPost.keyed ++
    (x.gets.filter (fun g => g.IsDue clock)).map TrackedGet.keyed

def timeOut (x : Exchange) : String × Request → Exchange
  | (key, .post _) => x.setPostStatus key .timedOut
  | (key, .get _) => x.setGetStatus key .timedOut

end Exchange

namespace Host

variable {h h' h₁ k : Host} {now : Timestamp} {id key : String} {c : ModuleCall}

/-! ## Hosts that are the same -/

structure Same (h h' : Host) : Prop where
  address : h'.address = h.address
  modules : h'.modules = h.modules
  exchange : h'.exchange = h.exchange
  clock : h'.clock = h.clock

theorem Same.refl (h : Host) : h.Same h := ⟨rfl, rfl, rfl, rfl⟩

theorem Same.symm (hsame : h.Same h') : h'.Same h :=
  ⟨hsame.address.symm, hsame.modules.symm, hsame.exchange.symm, hsame.clock.symm⟩

theorem Same.trans {h'' : Host} (hsame : h.Same h') (hsame' : h'.Same h'') : h.Same h'' :=
  ⟨hsame'.address.trans hsame.address, hsame'.modules.trans hsame.modules,
    hsame'.exchange.trans hsame.exchange, hsame'.clock.trans hsame.clock⟩

theorem clock_of_call {r : Except Failure Unit} (hcall : h.call id now c = (r, h')) :
    h'.clock = h.clock := by
  have hclock := clock_call h id now c
  rwa [hcall] at hclock

theorem address_of_call {r : Except Failure Unit} (hcall : h.call id now c = (r, h')) :
    h'.address = h.address := by
  rw [call] at hcall
  split at hcall
  · cases hcall
    rfl
  · cases hcall
    rfl

/-- A call that dispatches nothing and fails changes nothing at all. -/
theorem same_of_call_error (hs : h.Sound) (hc : c.dispatches = none) {f : Failure}
    (hcall : h.call id now c = (.error f, h')) : h.Same h' := by
  rw [call] at hcall
  split at hcall
  · cases hcall
    exact .refl h
  · next m hm =>
    obtain ⟨s, hsite, rfl⟩ := callModule_site hcall
    have hassets := (Site.call_error hsite).1
    have hgateway := Site.gateway_of_error hc (fun _ r _ => Site.untold_ofReplies _ _ r _) hsite
    have hmodules : (h.setModule m).modules = h.modules := by
      rw [setModule_of_mem hs (moduleOf_eq_ok hm).1]
    rw [hassets]
    exact ⟨rfl, hmodules, hgateway, rfl⟩

/-! ## One timeout -/

def supply (h : Host) (chain : String) : Nat :=
  match h.module? chain with
  | some m => m.ledger.supply
  | none => 0

theorem Sound.supply_eq (hs : h.Sound) {m : AssetModule} (hm : m ∈ h.modules) :
    h.supply m.chain.id = m.ledger.supply := by
  rw [supply, hs.module?_id hm]

/-- The source of a request does not take its timeout: the refund of a post does not fit its
supply, or a key of a get is empty. -/
def Blocks (h : Host) : Request → Prop
  | .post r => ∃ p, Payload.decode r.body = .ok p ∧ maxUint256 < h.supply r.source + p.amount
  | .get r => r.hasEmptyKey = true

def timeOut (now : Timestamp) (h : Host) (e : String × Request) : Host :=
  { h with
    modules := h.modules.map (fun m =>
      if m.chain.id = e.2.source then m.timedOut now e.2 else m)
    exchange := h.exchange.timeOut e }

def timedOut (now : Timestamp) (h : Host) (es : List (String × Request)) : Host :=
  es.foldl (timeOut now) h

theorem Same.blocks_iff (hsame : h.Same h') (r : Request) : h'.Blocks r ↔ h.Blocks r := by
  cases r with
  | post r => rw [Blocks, Blocks, supply, supply, module?, module?, hsame.modules]
  | get r => exact Iff.rfl

theorem Same.timeOut (hsame : h.Same h') (now : Timestamp) (e : String × Request) :
    (h.timeOut now e).Same (h'.timeOut now e) := by
  refine ⟨hsame.address, ?_, ?_, hsame.clock⟩
  · exact congrArg (List.map _) hsame.modules
  · exact congrArg (Exchange.timeOut · e) hsame.exchange

theorem modules_timedOut (hs : h.Sound) {m : AssetModule} (hm : m ∈ h.modules) {r : Request}
    (hid : m.chain.id = r.source) (now : Timestamp) :
    (h.setModule (m.timedOut now r)).modules =
      h.modules.map (fun n => if n.chain.id = r.source then n.timedOut now r else n) := by
  refine List.map_congr_left (fun n hn => ?_)
  rw [AssetModule.chain_timedOut, hid]
  split
  · next hsource => rw [hs.eq_of_id hn hm (hsource.trans hid.symm)]
  · rfl

/-- A post that its source took back was refunded and has timed out. -/
theorem timeOut_of_onPostTimeout (hs : h.Sound) {r : PostRequest}
    (hget : Table.get? key h.exchange.outline.posts = some (r, .dispatched))
    (hcall : h.call r.source now (.onPostTimeout h.address r) = (.ok (), h₁)) :
    ¬ h.Blocks (.post r) ∧ (h.timeOut now (key, .post r)).Same (h₁.closed key .timedOut) := by
  have hclock := clock_of_call hcall
  have haddress := address_of_call hcall
  have hexchange := exchange_of_timeout (Or.inl ⟨_, rfl⟩) hcall
  obtain ⟨m, hm, l, body, hcommit, hmodules⟩ := call_commits hcall
  have hmem := (moduleOf_eq_ok hm).1
  have hid := hs.id_of_moduleOf (hs.exchange.tracked hget).source hm
  generalize h₁.exchange = x at hcommit
  cases hcommit with
  | @onPostTimeout _ _ p move _ hdecode hmove =>
    obtain ⟨rfl, hsupply, -⟩ := Ledger.creditAccount_eq_ok.1 hmove
    refine ⟨?_, haddress, ?_, congrArg (Exchange.timeOut · (key, .post r)) hexchange, hclock⟩
    · rintro ⟨q, hq, hfull⟩
      rw [hdecode, Except.ok.injEq] at hq
      subst hq
      rw [← hid, hs.supply_eq hmem] at hfull
      omega
    · have hreplaced := modules_timedOut hs hmem (r := .post r) hid now
      rw [AssetModule.timedOut_post hdecode] at hreplaced
      exact hmodules.trans hreplaced

/-- A post that its source does not take back has a refund that does not fit. -/
theorem blocks_of_onPostTimeout (hs : h.Sound) (hv : h.Served) {r : PostRequest} {f : Failure}
    (hget : Table.get? key h.exchange.outline.posts = some (r, .dispatched))
    (hcall : h.call r.source now (.onPostTimeout h.address r) = (.error f, h₁)) :
    h.Blocks (.post r) ∧ h.Same h₁ := by
  refine ⟨?_, same_of_call_error hs rfl hcall⟩
  have htracked := hs.exchange.tracked hget
  obtain ⟨p, hdecode⟩ := htracked.payload
  obtain ⟨m, hm, hid, hmodule, hhost⟩ := hv.exists_module hs htracked.source
  refine ⟨p, hdecode, Nat.lt_of_not_le (fun hfits => ?_)⟩
  rw [← hid, hs.supply_eq hm] at hfits
  have hmove := (hs.ledgers m hm).creditAccount_eq_ok hfits p.sender
  obtain ⟨h₂, hok, -⟩ := call_of_commit now hmodule (.onPostTimeout hhost hdecode hmove)
  rw [hcall] at hok
  cases hok

/-- A get that its source took back has timed out. -/
theorem timeOut_of_onGetTimeout (hs : h.Sound) (key : String) {r : GetRequest}
    (hsource : r.source ∈ h.exchange.outline.ids)
    (hcall : h.call r.source now (.onGetTimeout h.address r) = (.ok (), h₁)) :
    ¬ h.Blocks (.get r) ∧ (h.timeOut now (key, .get r)).Same (h₁.closedGet key .timedOut) := by
  have hclock := clock_of_call hcall
  have haddress := address_of_call hcall
  have hexchange := exchange_of_timeout (Or.inr ⟨_, rfl⟩) hcall
  obtain ⟨m, hm, l, body, hcommit, hmodules⟩ := call_commits hcall
  have hmem := (moduleOf_eq_ok hm).1
  have hid := hs.id_of_moduleOf hsource hm
  generalize h₁.exchange = x at hcommit
  cases hcommit with
  | onGetTimeout _ hkeys =>
    refine ⟨?_, haddress, ?_, congrArg (Exchange.timeOut · (key, .get r)) hexchange, hclock⟩
    · rw [Blocks, Site.ensureKeys_eq_ok.1 hkeys]
      exact Bool.false_ne_true
    · exact hmodules.trans (modules_timedOut hs hmem (r := .get r) hid now)

/-- A get that its source does not take back has an empty key. -/
theorem blocks_of_onGetTimeout (hs : h.Sound) (hv : h.Served) {r : GetRequest} {f : Failure}
    (hsource : r.source ∈ h.exchange.outline.ids)
    (hcall : h.call r.source now (.onGetTimeout h.address r) = (.error f, h₁)) :
    h.Blocks (.get r) ∧ h.Same h₁ := by
  refine ⟨?_, same_of_call_error hs rfl hcall⟩
  rw [Blocks, ← Bool.not_eq_false]
  intro hfull
  obtain ⟨h₂, hok⟩ := (onGetTimeout_ok_iff hs hv hsource now).2 hfull
  rw [hcall] at hok
  cases hok

/-! ## Rounds -/

/-- A round has these requests before it and times them out, up to the first that blocks it. -/
inductive Round (now : Timestamp) :
    List (String × Request) → Host → Except Failure (List String) → Host → Prop
  | done {h h' : Host} (same : h.Same h') : Round now [] h (.ok []) h'
  | blocked {h h' : Host} {e : String × Request} {es : List (String × Request)} {f : Failure}
      (blocks : h.Blocks e.2) (same : h.Same h') : Round now (e :: es) h (.error f) h'
  | timedOut {h h' : Host} {e : String × Request} {es : List (String × Request)}
      {r : Except Failure (List String)} (free : ¬ h.Blocks e.2)
      (rest : Round now es (h.timeOut now e) r h') : Round now (e :: es) h (r.map (e.1 :: ·)) h'

namespace Round

variable {es es' : List (String × Request)} {r : Except Failure (List String)}

theorem of_same (hsame : h.Same k) (hround : Round now es k r h') : Round now es h r h' := by
  induction hround generalizing h with
  | done hlast => exact .done (hsame.trans hlast)
  | blocked hblocks hlast => exact .blocked ((hsame.blocks_iff _).1 hblocks) (hsame.trans hlast)
  | timedOut hfree _ ih =>
    exact .timedOut (fun hblocks => hfree ((hsame.blocks_iff _).2 hblocks))
      (ih (hsame.timeOut now _))

theorem append_ok {ks : List String} (hround : Round now es h (.ok ks) k)
    (hrest : Round now es' k r h') : Round now (es ++ es') h (r.map (ks ++ ·)) h' := by
  generalize hr : Except.ok ks = r₀ at hround
  induction hround generalizing ks with
  | done hsame =>
    cases hr
    have hmap : r.map (([] : List String) ++ ·) = r := by cases r <;> rfl
    rw [hmap]
    exact hrest.of_same hsame
  | blocked => cases hr
  | @timedOut _ _ e _ _ hfree _ ih =>
    obtain ⟨ks₀, rfl, rfl⟩ := map_eq_ok.1 hr.symm
    have hround := Round.timedOut hfree (ih hrest rfl)
    have hmap : (r.map (ks₀ ++ ·)).map (e.1 :: ·) = r.map (e.1 :: ks₀ ++ ·) := by cases r <;> rfl
    rw [hmap] at hround
    exact hround

theorem append_error {f : Failure} (hround : Round now es h (.error f) h')
    (es' : List (String × Request)) : Round now (es ++ es') h (.error f) h' := by
  generalize hr : Except.error f = r₀ at hround
  induction hround with
  | done => cases hr
  | blocked hblocks hsame =>
    cases hr
    exact .blocked hblocks hsame
  | timedOut hfree _ ih =>
    have hr := map_eq_error.1 hr.symm
    have hround := Round.timedOut hfree (ih hr.symm)
    rwa [hr] at hround ⊢

theorem of_ok {ks : List String} (hround : Round now es h (.ok ks) h') :
    ks = es.map Prod.fst ∧ (h.timedOut now es).Same h' := by
  generalize hr : Except.ok ks = r₀ at hround
  induction hround generalizing ks with
  | done hsame =>
    cases hr
    exact ⟨rfl, hsame⟩
  | blocked => cases hr
  | @timedOut _ _ e _ _ _ _ ih =>
    obtain ⟨ks₀, rfl, rfl⟩ := map_eq_ok.1 hr.symm
    obtain ⟨rfl, hsame⟩ := ih rfl
    exact ⟨rfl, hsame⟩

/-- A round that fails has timed out all that was before the request that it failed at. -/
theorem of_error {f : Failure} (hround : Round now es h (.error f) h') :
    ∃ done e rest, es = done ++ e :: rest ∧ (h.timedOut now done).Same h' ∧ h'.Blocks e.2 := by
  generalize hr : Except.error f = r₀ at hround
  induction hround with
  | done => cases hr
  | @blocked h h' e es f hblocks hsame =>
    exact ⟨[], e, es, rfl, hsame, (hsame.blocks_iff _).2 hblocks⟩
  | @timedOut h h' e es r _ _ ih =>
    obtain ⟨done, e', rest, rfl, hsame, hblocks⟩ := ih (map_eq_error.1 hr.symm).symm
    exact ⟨e :: done, e', rest, rfl, hsame, hblocks⟩

end Round

theorem expirePosts_round {ps : List TrackedPost} (hs : h.Sound) (hv : h.Served)
    (hp : h.Pending ps) (now : Timestamp) :
    Round now ((ps.filter (fun p => p.IsDue h.clock)).map TrackedPost.keyed) h
      (expirePosts now ps h).1 (expirePosts now ps h).2 := by
  induction ps generalizing h with
  | nil => exact .done (.refl h)
  | cons p ps ih =>
    by_cases hdue : p.IsDue h.clock
    · have hget := hp.2 p List.mem_cons_self
      rw [hdue.1] at hget
      have hfilter : (p :: ps).filter (fun p => p.IsDue h.clock) =
          p :: ps.filter (fun p => p.IsDue h.clock) :=
        List.filter_cons_of_pos (decide_eq_true hdue)
      rw [expirePosts_due hdue, hfilter, List.map_cons]
      rcases hcall : h.call p.request.source now (.onPostTimeout h.address p.request)
        with ⟨f | _, h₁⟩
      · obtain ⟨hblocks, hsame⟩ := blocks_of_onPostTimeout hs hv hget hcall
        exact .blocked hblocks hsame
      · obtain ⟨hfree, hsame⟩ := timeOut_of_onPostTimeout hs hget hcall
        obtain ⟨hs₁, hclosed, -⟩ := timeout_post hs hget hcall
        have hv₁ : (h₁.closed p.key .timedOut).Served :=
          served_kept.moves hv ((moves_of_call hcall).tail (.postStatus p.key .timedOut))
        have hround := ih hs₁ hv₁ (hp.setStatus hclosed)
        have hclock : (h₁.closed p.key .timedOut).clock = h.clock := hsame.clock
        rw [hclock] at hround
        exact .timedOut hfree (hround.of_same hsame)
    · have hskip : expirePosts now (p :: ps) h = expirePosts now ps h := if_neg hdue
      rw [hskip, List.filter_cons_of_neg (by rwa [decide_eq_true_eq])]
      exact ih hs hv hp.tail

theorem expireGets_round {gs : List TrackedGet} (hs : h.Sound) (hv : h.Served)
    (hsources : ∀ g ∈ gs, g.request.source ∈ h.exchange.outline.ids) (now : Timestamp) :
    Round now ((gs.filter (fun g => g.IsDue h.clock)).map TrackedGet.keyed) h
      (expireGets now gs h).1 (expireGets now gs h).2 := by
  induction gs generalizing h with
  | nil => exact .done (.refl h)
  | cons g gs ih =>
    have hsource := hsources g List.mem_cons_self
    have hrest : ∀ g' ∈ gs, g'.request.source ∈ h.exchange.outline.ids :=
      fun g' hg' => hsources g' (List.mem_cons_of_mem _ hg')
    by_cases hdue : g.IsDue h.clock
    · have hfilter : (g :: gs).filter (fun g => g.IsDue h.clock) =
          g :: gs.filter (fun g => g.IsDue h.clock) :=
        List.filter_cons_of_pos (decide_eq_true hdue)
      rw [expireGets_due hdue, hfilter, List.map_cons]
      rcases hcall : h.call g.request.source now (.onGetTimeout h.address g.request)
        with ⟨f | _, h₁⟩
      · obtain ⟨hblocks, hsame⟩ := blocks_of_onGetTimeout hs hv hsource hcall
        exact .blocked hblocks hsame
      · obtain ⟨hfree, hsame⟩ := timeOut_of_onGetTimeout hs g.key hsource hcall
        have hal : h.Alike (h₁.closedGet g.key .timedOut) := by
          have hcalled := call_answer hs (Or.inr (Or.inr ⟨_, rfl⟩)) hcall
          exact ⟨hcalled.modules, hcalled.outline⟩
        have hv₁ : (h₁.closedGet g.key .timedOut).Served :=
          served_kept.moves hv ((moves_of_call hcall).tail (.getStatus g.key .timedOut))
        -- with one get timed out, the host that goes on is still sound and served
        have hround := ih (hs.alike hal) hv₁ (fun g' hg' => hal.outline ▸ hrest g' hg')
        have hclock : (h₁.closedGet g.key .timedOut).clock = h.clock := hsame.clock
        rw [hclock] at hround
        exact .timedOut hfree (hround.of_same hsame)
    · have hskip : expireGets now (g :: gs) h = expireGets now gs h := if_neg hdue
      rw [hskip, List.filter_cons_of_neg (by rwa [decide_eq_true_eq])]
      exact ih hs hv hrest

/-- Once the clock is moved, an operation is a round over all that is due then. -/
theorem expire_round (hs : h.Sound) (hv : h.Served) {clock : Int} (hclock : h.clock ≤ clock)
    (now : Timestamp) :
    Round now (h.exchange.due clock) { h with clock := clock } (h.expire now clock).1
      (h.expire now clock).2 := by
  have hs₀ : Sound { h with clock := clock } := hs.alike ⟨rfl, rfl⟩
  have hv₀ : Served { h with clock := clock } := served_kept _ _ hv (.clock clock)
  have hfirst := expirePosts_round hs₀ hv₀ (pending_posts hs₀) now
  have hmoves := expirePosts_moves now h.exchange.posts { h with clock := clock }
  rw [expire, if_neg (Int.not_lt.2 hclock)]
  simp only
  rcases hposts : expirePosts now h.exchange.posts { h with clock := clock } with ⟨f | ps, h₁⟩
  · simp only [hposts] at hfirst
    exact hfirst.append_error _
  · simp only [hposts] at hfirst hmoves
    obtain ⟨hs₁, -⟩ := expirePosts_evolves hs₀ (pending_posts hs₀) hposts
    have hv₁ := served_kept.moves hv₀ hmoves
    have hgets : h₁.exchange.gets = h.exchange.gets := (expirePosts_ok hposts).1
    have hclock₁ : h₁.clock = clock := (expirePosts_ok hposts).2
    have hsecond := expireGets_round hs₁ hv₁ hv₁.sourced now
    rw [hgets, hclock₁] at hsecond
    have hround := hfirst.append_ok hsecond
    simp only [hgets]
    rcases hlast : expireGets now h.exchange.gets h₁ with ⟨f | gs, h₂⟩
    · rw [hlast] at hround
      exact hround
    · rw [hlast] at hround
      exact hround

/-! ## What a round leaves -/

/-- What a round that dealt with these has made of a request. -/
def endedAmong (es : List (String × Request)) (e : String × Request × RequestStatus) :
    String × Request × RequestStatus :=
  if e.1 ∈ es.map Prod.fst then (e.1, e.2.1, .timedOut) else e

theorem endedAmong_cons (e : String × Request) (es : List (String × Request))
    (q : String × Request × RequestStatus) :
    endedAmong es (statusSet e.1 .timedOut q) = endedAmong (e :: es) q := by
  unfold endedAmong statusSet
  by_cases hkey : q.1 = e.1
  · simp only [hkey, if_true, List.map_cons, List.mem_cons_self, ite_self]
  · simp only [hkey, if_false, List.map_cons, List.mem_cons, false_or]

theorem requests_timeOut {x : Exchange} (hx : x.Numbered) {e : String × Request}
    {s : RequestStatus} (hmem : (e.1, e.2, s) ∈ x.requests) :
    (x.timeOut e).requests = x.requests.map (statusSet e.1 .timedOut) := by
  rcases e with ⟨key, r | r⟩
  · exact Exchange.requests_setPostStatus hx hmem .timedOut
  · exact Exchange.requests_setGetStatus hx hmem .timedOut

theorem numbered_timeOut {x : Exchange} (hx : x.Numbered) (e : String × Request) :
    (x.timeOut e).Numbered := by
  rcases e with ⟨key, r | r⟩
  · exact hx.of_eq (entries_setPostStatus x key .timedOut) rfl
  · exact hx.of_eq (entries_setGetStatus x key .timedOut) rfl

def flying (es : List (String × Request)) : Table String (Request × RequestStatus) :=
  es.map (fun e => (e.1, e.2, .dispatched))

theorem requests_timedOut {es : List (String × Request)} (hx : h.exchange.Numbered)
    (ha : h.exchange.Awaits (flying es)) (now : Timestamp) :
    (h.timedOut now es).exchange.requests = h.exchange.requests.map (endedAmong es) := by
  induction es generalizing h with
  | nil =>
    have hid : endedAmong [] = id := rfl
    rw [hid, List.map_id]
    rfl
  | cons e es ih =>
    have hended := requests_timeOut hx (ha.2 _ List.mem_cons_self)
    have hrest := ih (h := h.timeOut now e) (numbered_timeOut hx e) (ha.statusSet hended)
    refine hrest.trans ?_
    show (h.exchange.timeOut e).requests.map (endedAmong es) = _
    rw [hended, List.map_map]
    exact List.map_congr_left (fun q _ => endedAmong_cons e es q)

theorem clock_timedOut (now : Timestamp) (h : Host) (es : List (String × Request)) :
    (h.timedOut now es).clock = h.clock := by
  induction es generalizing h with
  | nil => rfl
  | cons e es ih => exact ih (h.timeOut now e)

theorem mem_due {x : Exchange} {clock : Int} {e : String × Request} (he : e ∈ x.due clock) :
    (e.1, e.2, .dispatched) ∈ x.requests := by
  rcases List.mem_append.1 he with he | he
  · obtain ⟨p, hp, rfl⟩ := List.mem_map.1 he
    obtain ⟨hmem, hdue⟩ := List.mem_filter.1 hp
    rw [TrackedPost.keyed, ← (of_decide_eq_true hdue).1]
    exact List.mem_append_left _ (List.mem_map_of_mem hmem)
  · obtain ⟨g, hg, rfl⟩ := List.mem_map.1 he
    obtain ⟨hmem, hdue⟩ := List.mem_filter.1 hg
    rw [TrackedGet.keyed, ← (of_decide_eq_true hdue).1]
    exact List.mem_append_right _ (List.mem_map_of_mem hmem)

/-- What is due is in flight, and under one key each. -/
theorem awaits_due {x : Exchange} (hx : x.Numbered) (clock : Int) :
    x.Awaits (flying (x.due clock)) := by
  refine ⟨?_, fun e he => ?_⟩
  · have hkeys : Table.keys (flying (x.due clock)) =
        (x.posts.filter (fun p => p.IsDue clock)).map TrackedPost.key ++
          (x.gets.filter (fun g => g.IsDue clock)).map TrackedGet.key := by
      rw [Table.keys, flying, List.map_map, Exchange.due, List.map_append, List.map_map,
        List.map_map]
      rfl
    have hnodup := hx.nodup
    rw [Exchange.keys_requests] at hnodup
    rw [hkeys]
    exact hnodup.sublist (List.Sublist.append (List.filter_sublist.map _)
      (List.filter_sublist.map _))
  · obtain ⟨e', he', rfl⟩ := List.mem_map.1 he
    exact mem_due he'

theorem awaits_of_append {x : Exchange} {es es' : List (String × Request)}
    (ha : x.Awaits (flying (es ++ es'))) : x.Awaits (flying es) := by
  rw [flying, List.map_append] at ha
  refine ⟨?_, fun e he => ha.2 e (List.mem_append_left _ he)⟩
  have hnodup := ha.1
  rw [Table.keys, List.map_append] at hnodup
  exact (List.nodup_append.1 hnodup).1

/-- A round that dealt with anything, or was called at a later time, has left its mark. -/
theorem same_timedOut_iff {es : List (String × Request)} (hx : h.exchange.Numbered)
    (ha : h.exchange.Awaits (flying es)) (now : Timestamp) (clock : Int) :
    h.Same ({ h with clock := clock }.timedOut now es) ↔ clock = h.clock ∧ es = [] := by
  constructor
  · intro hsame
    refine ⟨(clock_timedOut now { h with clock := clock } es).symm.trans hsame.clock, ?_⟩
    cases es with
    | nil => rfl
    | cons e es =>
      have hrequests := requests_timedOut (h := { h with clock := clock }) hx ha now
      rw [hsame.exchange] at hrequests
      have hmem := ha.2 (e.1, e.2, .dispatched) List.mem_cons_self
      have hended := List.mem_map_of_mem (f := endedAmong (e :: es)) hmem
      have hlast : endedAmong (e :: es) (e.1, e.2, .dispatched) = (e.1, e.2, .timedOut) :=
        if_pos List.mem_cons_self
      rw [← hrequests, hlast] at hended
      have hstatus := congrArg (fun q => q.2.2) (hx.eq_of_key hmem hended rfl)
      cases hstatus
  · rintro ⟨rfl, rfl⟩
    exact .refl h

end Host
end Interchain
