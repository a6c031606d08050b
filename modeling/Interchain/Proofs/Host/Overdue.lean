/-
Rounds of timeouts that end well.

A round that ends well has timed out all that was due and nothing else.  What that means is
said of each part of the host on its own: of the exchange, where one status is set after the
other and in the end those of all that was due (`timedOut_due`), and of each module, to which
the refunds of its posts add up, several to one account included (`reimbursed_timedOut`).
Whether a request is due is also what a delivery goes by, so that a post that can still be
delivered is not timed out, and the other way round (`expire_times_out_due`).
-/
import Interchain.Proofs.Host.Expiry
import Mathlib.Algebra.GroupWithZero.Nat

namespace Interchain

/-! ## What a request comes to when it times out -/

namespace Request

def timeout : Request → Int
  | .post r => r.timeout
  | .get r => r.timeout

/-- What is given back, and to whom. -/
def carried? : Request → Option Payload
  | .post r => (Payload.decode r.body).toOption
  | .get _ => none

def refund (r : Request) : Nat := (r.carried?.map Payload.amount).getD 0

def refundTo (a : Address) (r : Request) : Nat :=
  match r.carried? with
  | some p => if p.sender = a then p.amount else 0
  | none => 0

def notice? : Request → Option EventBody
  | .post r => (Payload.decode r.body).toOption.map (fun p =>
      .balanceMinted p.sender.render p.recipient.render p.sender.render p.amount .timeout)
  | .get r => some (.timeoutReceived r.source r.dest r.nonce)

end Request

/-- A module after these requests of its chain have timed out: the refunds have been added to
the supply and to the balances of the senders, and there is one event for each request. -/
structure AssetModule.Reimbursed (now : Timestamp) (m : AssetModule) (rs : List Request)
    (m' : AssetModule) : Prop where
  chain : m'.chain = m.chain
  host : m'.host = m.host
  address : m'.address = m.address
  supply : m'.ledger.supply = m.ledger.supply + (rs.map Request.refund).sum
  balance : ∀ a, m'.ledger.balance a = m.ledger.balance a + (rs.map (Request.refundTo a)).sum
  outbox : m'.outbox = m.outbox ++ (rs.filterMap Request.notice?).map (m.event now)

namespace AssetModule

variable {now : Timestamp} {m m' m'' : AssetModule}

theorem Reimbursed.refl (now : Timestamp) (m : AssetModule) : m.Reimbursed now [] m :=
  ⟨rfl, rfl, rfl, rfl, fun _ => rfl, (List.append_nil _).symm⟩

theorem Reimbursed.trans {rs rs' : List Request} (h : m.Reimbursed now rs m')
    (h' : m'.Reimbursed now rs' m'') : m.Reimbursed now (rs ++ rs') m'' := by
  have hevent : m'.event now = m.event now := by
    funext body
    rw [event, event, h.chain]
  refine ⟨h'.chain.trans h.chain, h'.host.trans h.host, h'.address.trans h.address, ?_,
    fun a => ?_, ?_⟩
  · rw [h'.supply, h.supply, List.map_append, List.sum_append, Nat.add_assoc]
  · rw [h'.balance, h.balance, List.map_append, List.sum_append, Nat.add_assoc]
  · rw [h'.outbox, h.outbox, hevent, List.filterMap_append, List.map_append, List.append_assoc]

theorem reimbursed_one (now : Timestamp) (m : AssetModule) (r : Request) :
    m.Reimbursed now [r] (m.timedOut now r) := by
  rcases r with r | r
  · rcases hdecode : Payload.decode r.body with _ | p
    · have hsame : m.timedOut now (.post r) = m := by rw [timedOut, hdecode]
      have hnone : Request.carried? (.post r) = none := by rw [Request.carried?, hdecode]; rfl
      have hsilent : Request.notice? (.post r) = none := by rw [Request.notice?, hdecode]; rfl
      rw [hsame]
      exact ⟨rfl, rfl, rfl, by simp [Request.refund, hnone], by simp [Request.refundTo, hnone],
        by simp [hsilent]⟩
    · have hsome : Request.carried? (.post r) = some p := by rw [Request.carried?, hdecode]; rfl
      have hnotice : Request.notice? (.post r) = some (.balanceMinted p.sender.render
          p.recipient.render p.sender.render p.amount .timeout) := by
        rw [Request.notice?, hdecode]
        rfl
      rw [timedOut_post hdecode]
      refine ⟨rfl, rfl, rfl, ?_, fun a => ?_, ?_⟩
      · rw [List.map_singleton, Request.refund, hsome]
        rfl
      · rw [List.map_singleton, Request.refundTo, hsome, List.sum_singleton]
        show (m.ledger.apply (m.ledger.raise p.sender p.amount)).balance a =
          m.ledger.balance a + if p.sender = a then p.amount else 0
        by_cases ha : p.sender = a
        · rw [if_pos ha, ← ha]
          exact Ledger.balance_apply_self m.ledger (m.ledger.raise p.sender p.amount)
        · rw [if_neg ha]
          exact Ledger.balance_apply_of_ne m.ledger (m.ledger.raise p.sender p.amount) (Ne.symm ha)
      · rw [List.filterMap_cons_some hnotice]
        rfl
  · exact ⟨rfl, rfl, rfl, rfl, fun _ => rfl, rfl⟩

theorem reimbursed_timedOut (now : Timestamp) (m : AssetModule) (rs : List Request) :
    m.Reimbursed now rs (rs.foldl (timedOut now) m) := by
  induction rs generalizing m with
  | nil => exact .refl now m
  | cons r rs ih => exact (reimbursed_one now m r).trans (ih (m.timedOut now r))

end AssetModule

/-! ## What becomes of the exchange -/

section

variable {α : Type} {f : α → String} {g : α → α}

/-- Entries that are changed under one key after the other. -/
theorem foldl_changed (hf : ∀ a, f (g a) = f a) (hg : ∀ a, g (g a) = g a) (ks : List String)
    (as : List α) :
    ks.foldl (fun as k => as.map (fun a => if f a = k then g a else a)) as =
      as.map (fun a => if f a ∈ ks then g a else a) := by
  induction ks generalizing as with
  | nil => simp
  | cons k ks ih =>
    rw [List.foldl_cons, ih, List.map_map]
    refine List.map_congr_left (fun a _ => ?_)
    by_cases hk : f a = k
    · simp [hk, hf, hg]
    · simp [hk]

/-- If no two have one key, those of which the keys are taken are those that change. -/
theorem foldl_changed_filter (hf : ∀ a, f (g a) = f a) (hg : ∀ a, g (g a) = g a) {as : List α}
    (hnodup : (as.map f).Nodup) (p : α → Prop) [DecidablePred p] :
    ((as.filter (fun a => p a)).map f).foldl
        (fun as k => as.map (fun a => if f a = k then g a else a)) as =
      as.map (fun a => if p a then g a else a) := by
  rw [foldl_changed hf hg]
  refine List.map_congr_left (fun a ha => ?_)
  have hiff : f a ∈ (as.filter (fun a => p a)).map f ↔ p a := by
    constructor
    · intro hmem
      obtain ⟨b, hb, hkey⟩ := List.mem_map.1 hmem
      obtain ⟨hb, hpb⟩ := List.mem_filter.1 hb
      rw [← List.inj_on_of_nodup_map hnodup hb ha hkey]
      exact of_decide_eq_true hpb
    · intro hpa
      exact List.mem_map_of_mem (List.mem_filter.2 ⟨ha, decide_eq_true hpa⟩)
  simp only [hiff]

end

namespace Exchange

variable {x : Exchange}

/-- What is due of one chain, posts before gets. -/
def dueOf (x : Exchange) (clock : Int) (source : String) : List Request :=
  ((x.due clock).map Prod.snd).filter (fun r => r.source = source)

def timedOutAt (x : Exchange) (clock : Int) : Exchange :=
  { x with
    posts := x.posts.map (fun p => if p.IsDue clock then { p with status := .timedOut } else p)
    gets := x.gets.map (fun g => if g.IsDue clock then { g with status := .timedOut } else g) }

theorem foldl_timeOut_posts (x : Exchange) (ps : List TrackedPost) :
    (ps.map TrackedPost.keyed).foldl timeOut x = { x with
      posts := (ps.map TrackedPost.key).foldl (fun ps k =>
        ps.map (fun p => if p.key = k then { p with status := .timedOut } else p)) x.posts } := by
  induction ps generalizing x with
  | nil => rfl
  | cons p ps ih => exact ih (x.setPostStatus p.key .timedOut)

theorem foldl_timeOut_gets (x : Exchange) (gs : List TrackedGet) :
    (gs.map TrackedGet.keyed).foldl timeOut x = { x with
      gets := (gs.map TrackedGet.key).foldl (fun gs k =>
        gs.map (fun g => if g.key = k then { g with status := .timedOut } else g)) x.gets } := by
  induction gs generalizing x with
  | nil => rfl
  | cons g gs ih => exact ih (x.setGetStatus g.key .timedOut)

/-- One after the other, exactly what is due is timed out. -/
theorem foldl_timeOut_due (hx : x.Numbered) (clock : Int) :
    (x.due clock).foldl timeOut x = x.timedOutAt clock := by
  have hnodup := hx.nodup
  rw [keys_requests, List.nodup_append] at hnodup
  obtain ⟨hposts, hgets, -⟩ := hnodup
  have hposts := foldl_changed_filter (f := TrackedPost.key)
    (g := fun p => { p with status := .timedOut }) (fun _ => rfl) (fun _ => rfl) hposts
    (fun p => p.IsDue clock)
  have hgets := foldl_changed_filter (f := TrackedGet.key)
    (g := fun g => { g with status := .timedOut }) (fun _ => rfl) (fun _ => rfl) hgets
    (fun g => g.IsDue clock)
  rw [due, List.foldl_append, foldl_timeOut_posts, foldl_timeOut_gets]
  exact congrArg₂ (fun ps gs => { x with posts := ps, gets := gs }) hposts hgets

end Exchange

namespace Host

variable {h h' : Host} {now : Timestamp} {key : String} {c : ModuleCall}

theorem exchange_timedOut (now : Timestamp) (h : Host) (es : List (String × Request)) :
    (h.timedOut now es).exchange = es.foldl Exchange.timeOut h.exchange := by
  induction es generalizing h with
  | nil => rfl
  | cons e es ih => exact ih (h.timeOut now e)

theorem address_timedOut (now : Timestamp) (h : Host) (es : List (String × Request)) :
    (h.timedOut now es).address = h.address := by
  induction es generalizing h with
  | nil => rfl
  | cons e es ih => exact ih (h.timeOut now e)

/-- Each module takes the timeouts of its own requests, in their order. -/
theorem map_timedOut (now : Timestamp) (h : Host) (es : List (String × Request)) :
    (h.timedOut now es).modules = h.modules.map (fun m =>
      ((es.map Prod.snd).filter (fun r => r.source = m.chain.id)).foldl
        (AssetModule.timedOut now) m) := by
  induction es generalizing h with
  | nil => exact (List.map_id' _).symm
  | cons e es ih =>
    refine (ih (h.timeOut now e)).trans ?_
    show (h.modules.map _).map _ = _
    rw [List.map_map]
    refine List.map_congr_left (fun m _ => ?_)
    by_cases hsource : m.chain.id = e.2.source
    · simp [hsource, AssetModule.chain_timedOut]
    · simp [hsource, Ne.symm hsource]

/-! ## What is due -/

theorem passed_of_due {x : Exchange} {clock : Int} {e : String × Request} (he : e ∈ x.due clock) :
    e.2.timeout ≠ 0 ∧ e.2.timeout ≤ clock := by
  have hpassed {timeout : Int} (h : hasExpired timeout clock = true) :
      timeout ≠ 0 ∧ timeout ≤ clock := by
    rw [hasExpired, Bool.and_eq_true, bne_iff_ne, decide_eq_true_eq] at h
    exact h
  rcases List.mem_append.1 he with he | he
  · obtain ⟨p, hp, rfl⟩ := List.mem_map.1 he
    exact hpassed (of_decide_eq_true (List.mem_filter.1 hp).2).2
  · obtain ⟨g, hg, rfl⟩ := List.mem_map.1 he
    exact hpassed (of_decide_eq_true (List.mem_filter.1 hg).2).2

/-- The source of what is due is there to take it, and has something to say. -/
theorem taken_of_due (hs : h.Sound) (hv : h.Served) {clock : Int} {e : String × Request}
    (he : e ∈ h.exchange.due clock) :
    e.2.notice?.isSome = true ∧ ∃ m ∈ h.modules, m.chain.id = e.2.source := by
  have hregistered {id : String} (hid : id ∈ h.exchange.outline.ids) :
      ∃ m ∈ h.modules, m.chain.id = id := by
    rw [hs.ids_eq] at hid
    exact List.mem_map.1 hid
  rcases List.mem_append.1 he with he | he
  · obtain ⟨p, hp, rfl⟩ := List.mem_map.1 he
    have htracked := hs.exchange.tracked ((pending_posts hs).2 p (List.mem_filter.1 hp).1)
    obtain ⟨q, hq⟩ := htracked.payload
    have hnotice : (Request.notice? (.post p.request)).isSome = true := by
      rw [Request.notice?, hq]
      rfl
    exact ⟨hnotice, hregistered htracked.source⟩
  · obtain ⟨g, hg, rfl⟩ := List.mem_map.1 he
    exact ⟨rfl, hregistered (hv.sourced g (List.mem_filter.1 hg).1)⟩

theorem dispatched_of_due {x : Exchange} (hx : x.Numbered) {clock : Int}
    {e : String × Request × RequestStatus} (he : e ∈ x.requests)
    (hdue : (e.1, e.2.1) ∈ x.due clock) :
    e.2.2 = .dispatched ∧ hasExpired e.2.1.timeout clock = true := by
  have hdispatched : (e.1, e.2.1, RequestStatus.dispatched) = e :=
    hx.eq_of_key (mem_due hdue) he rfl
  refine ⟨congrArg (·.2.2) hdispatched.symm, ?_⟩
  rw [hasExpired, Bool.and_eq_true, bne_iff_ne, decide_eq_true_eq]
  exact passed_of_due hdue

theorem mem_due_post {x : Exchange} (hx : x.Numbered) {clock : Int} {p : TrackedPost}
    (hpost : x.post? key = some p) : (key, .post p.request) ∈ x.due clock ↔ p.IsDue clock := by
  obtain ⟨hp, rfl⟩ := Exchange.of_post?_eq_some hpost
  constructor
  · exact dispatched_of_due hx (List.mem_append_left _ (List.mem_map_of_mem hp))
  · intro hdue
    refine List.mem_append_left _ (List.mem_map_of_mem (List.mem_filter.2 ⟨hp, ?_⟩))
    exact decide_eq_true hdue

theorem mem_due_get {x : Exchange} (hx : x.Numbered) {clock : Int} {g : TrackedGet}
    (hget : x.get? key = some g) : (key, .get g.request) ∈ x.due clock ↔ g.IsDue clock := by
  obtain ⟨hg, rfl⟩ := Exchange.of_get?_eq_some hget
  constructor
  · exact dispatched_of_due hx (List.mem_append_right _ (List.mem_map_of_mem hg))
  · intro hdue
    refine List.mem_append_right _ (List.mem_map_of_mem (List.mem_filter.2 ⟨hg, ?_⟩))
    exact decide_eq_true hdue

/-! ## Answers that come too late -/

end Host

def Failure.IsExpiry (f : Failure) : Prop :=
  ∃ key deadline context, f = .refused ⟨.expired key deadline, context⟩

namespace Host

variable {h h' : Host} {now : Timestamp} {key id : String} {c : ModuleCall}

/-- No module says so: it is the host that looks at the clock. -/
theorem not_isExpiry_of_call (hs : h.Sound) (hv : h.Served) (hid : id ∈ h.exchange.outline.ids)
    (hc : c.hostCaller? = some h.address) {f : Failure} (hcall : h.call id now c = (.error f, h')) :
    ¬ f.IsExpiry := by
  rintro ⟨k, deadline, context, rfl⟩
  obtain ⟨m, hm, -, hmodule⟩ := hs.exists_moduleOf hid
  have hhost : m.host.IsSpelledBy h.address := Address.isSpelledBy_iff.2 (hv.hosted m hm)
  rw [call, hmodule] at hcall
  obtain ⟨s, hsite, -⟩ := callModule_site hcall
  obtain ⟨cause, hcause, hcode⟩ | ⟨-, fault, hfault⟩ :=
    Site.failure_of_host _ now hc ⟨m, h.exchange, h.metrics⟩ hhost (congrArg Prod.fst hsite)
  · cases hcause
    have hmem : ErrorCode.invalidTransition ∈ _ := c.code_of_refusals _ hcode
    exact absurd hmem (by decide)
  · cases hfault

/-- A post in flight is refused for its deadline exactly when it is due by the clock. -/
theorem deliver_expired_iff (hs : h.Sound) (hv : h.Served) {p : TrackedPost}
    (hpost : h.exchange.post? key = some p) (hstatus : p.status = .dispatched)
    (now : Timestamp) :
    (∃ f, (h.deliver now key).1 = .error f ∧ f.IsExpiry) ↔ p.IsDue h.clock := by
  have htracked : h.trackedPost key = .ok p := by rw [trackedPost, hpost]
  by_cases hopen : hasExpired p.request.timeout h.clock = true
  · refine iff_of_true ?_ ⟨hstatus, hopen⟩
    refine ⟨_, ?_, key, p.request.timeout, none, rfl⟩
    rw [deliver, htracked]
    simp only [hstatus, ensureAnswerable, hopen]
    rfl
  · refine iff_of_false ?_ (fun hdue => hopen hdue.2)
    rw [Bool.not_eq_true] at hopen
    rintro ⟨f, hfail, hexpiry⟩
    rcases hcall : (h.setDelivering (some key)).call p.request.dest now
      (.onAccept h.address p.request) with ⟨f' | _, h₁⟩
    · rw [deliver, htracked] at hfail
      simp only [hstatus, ensureAnswerable_ok hopen, hcall] at hfail
      obtain rfl := Except.error.inj hfail
      have hs₀ := hs.setDelivering (some key)
      have hv₀ := hv.setDelivering (some key)
      have hdest := (hs.exchange.tracked (get?_of_dispatched hs hpost hstatus)).dest
      exact not_isExpiry_of_call hs₀ hv₀ hdest rfl hcall hexpiry
    · obtain ⟨h', -, hdeliver⟩ := deliver_of_accepted hs hv hpost hstatus hopen hcall
      rw [hdeliver] at hfail
      cases hfail

/-- A get in flight is refused for its deadline exactly when it is due by the clock. -/
theorem respondToGet_expired_iff (hs : h.Sound) (hv : h.Served) {g : TrackedGet}
    (hget : h.exchange.get? key = some g) (hstatus : g.status = .dispatched) (now : Timestamp)
    (values : List StorageValue) :
    (∃ f, (h.respondToGet now key values).1 = .error f ∧ f.IsExpiry) ↔ g.IsDue h.clock := by
  have htracked : h.trackedGet key = .ok g := by rw [trackedGet, hget]
  by_cases hopen : hasExpired g.request.timeout h.clock = true
  · refine iff_of_true ?_ ⟨hstatus, hopen⟩
    refine ⟨_, ?_, key, g.request.timeout, none, rfl⟩
    rw [respondToGet, htracked]
    simp only [hstatus, ensureAnswerable, hopen]
    rfl
  · refine iff_of_false ?_ (fun hdue => hopen hdue.2)
    rw [Bool.not_eq_true] at hopen
    rintro ⟨f, hfail, hexpiry⟩
    rw [respondToGet, htracked] at hfail
    simp only [hstatus, ensureAnswerable_ok hopen] at hfail
    rcases hcall : h.call g.request.source now (.onGetResponse h.address ⟨g.request, values⟩)
      with ⟨f' | _, h₁⟩
    · rw [hcall] at hfail
      obtain rfl := Except.error.inj hfail
      have hsource := hv.sourced g (Exchange.of_get?_eq_some hget).1
      exact not_isExpiry_of_call hs hv hsource rfl hcall hexpiry
    · rw [hcall] at hfail
      cases hfail

/-! ## Rounds that end well -/

/-- What there is once a round at a time has ended well: the keys are those of all that was due,
in their order, and these requests have timed out.  Each module has the refunds of its posts and
an event for each of its requests.  Nothing else has changed but the clock. -/
structure Expired (h : Host) (now : Timestamp) (clock : Int) (keys : List String) (h' : Host) :
    Prop where
  forward : h.clock ≤ clock
  clock_eq : h'.clock = clock
  address : h'.address = h.address
  keys_eq : keys = (h.exchange.due clock).map Prod.fst
  exchange : h'.exchange = h.exchange.timedOutAt clock
  modules : ∃ f, h'.modules = h.modules.map f ∧
    ∀ m ∈ h.modules, m.Reimbursed now (h.exchange.dueOf clock m.chain.id) (f m)
  taken : ∀ e ∈ h.exchange.due clock,
    e.2.notice?.isSome = true ∧ ∃ m ∈ h.modules, m.chain.id = e.2.source

theorem expired_of_expire (hs : h.Sound) (hv : h.Served) (hx : h.exchange.Numbered) {clock : Int}
    {keys : List String} (hexpire : h.expire now clock = (.ok keys, h')) :
    h.Expired now clock keys h' := by
  have hclock : h.clock ≤ clock := by
    refine Int.not_lt.1 (fun hback => ?_)
    rw [expire, if_pos hback] at hexpire
    cases hexpire
  have hround := expire_round hs hv hclock now
  rw [hexpire] at hround
  obtain ⟨hkeys, hsame⟩ := hround.of_ok
  refine ⟨hclock, ?_, ?_, hkeys, ?_, ⟨_, hsame.modules.trans (map_timedOut now _ _),
    fun m _ => AssetModule.reimbursed_timedOut now m _⟩, fun e he => taken_of_due hs hv he⟩
  · exact hsame.clock.trans (clock_timedOut now _ _)
  · exact hsame.address.trans (address_timedOut now _ _)
  · rw [hsame.exchange, exchange_timedOut]
    exact Exchange.foldl_timeOut_due hx clock

/-- Whatever host is reached and whatever time it is given: a round of timeouts that returns has
timed out exactly what was due then.  A post in flight is refused for its deadline by a delivery
exactly when such a round at the time of the clock would take it, and so is a get by a response;
and what has no deadline is due at no time. -/
theorem expire_times_out_due {address : String} {clock₀ : Int} {d : Draws}
    (hreach : (Host.new address clock₀ d).Reaches h) :
    (∀ now clock keys h', h.expire now clock = (.ok keys, h') → h.Expired now clock keys h') ∧
    (∀ now key p, h.exchange.post? key = some p → p.status = .dispatched →
      ((∃ f, (h.deliver now key).1 = .error f ∧ f.IsExpiry) ↔
        (key, .post p.request) ∈ h.exchange.due h.clock)) ∧
    (∀ now key values g, h.exchange.get? key = some g → g.status = .dispatched →
      ((∃ f, (h.respondToGet now key values).1 = .error f ∧ f.IsExpiry) ↔
        (key, .get g.request) ∈ h.exchange.due h.clock)) ∧
    ∀ clock, ∀ e ∈ h.exchange.due clock, e.2.timeout ≠ 0 ∧ e.2.timeout ≤ clock := by
  have hs : h.Sound := Reaches.sound (sound_new address clock₀ d) hreach
  have hx : h.exchange.Numbered := Reaches.numbered (Exchange.numbered_empty d) hreach
  have hv : h.Served := Reaches.served (served_new address clock₀ d) hreach
  refine ⟨fun now clock keys h' => expired_of_expire hs hv hx, fun now key p hpost hstatus => ?_,
    fun now key values g hget hstatus => ?_, fun clock e => passed_of_due⟩
  · rw [deliver_expired_iff hs hv hpost hstatus now, mem_due_post hx hpost]
  · rw [respondToGet_expired_iff hs hv hget hstatus now, mem_due_get hx hget]

theorem reaches_twice : vacant.Reaches twice := by
  rw [twice]
  exact reaches_run vacant _

theorem key_sentPost_one (body : String) : (sentPost 1 body).key = "POLKADOT-2000/1" := by
  show requestKey "POLKADOT-2000" (1 : Nat) = _
  decide

/-- Both posts of one account are due at 10, and then it has back what it sent.  Before that
neither comes too late. -/
theorem expire_times_out_due_twice :
    ∃ h', twice.expire ⟨0⟩ 10 = (.ok ["POLKADOT-2000/0", "POLKADOT-2000/1"], h') ∧
      twice.Expired ⟨0⟩ 10 ["POLKADOT-2000/0", "POLKADOT-2000/1"] h' ∧
      twice.balance "POLKADOT-2000" (.small 1) = 1 ∧
      h'.balance "POLKADOT-2000" (.small 1) = 5 ∧
      ¬ ∃ f, (twice.deliver ⟨0⟩ "POLKADOT-2000/0").1 = .error f ∧ f.IsExpiry := by
  obtain ⟨m, b₀, b₁, hh, hdecode₀, hdecode₁, hposts, hgets, -, hclock⟩ := twice_tracked
  obtain ⟨hexpired, hlate, -⟩ := expire_times_out_due reaches_twice
  have hv : twice.Served := Reaches.served (served_new _ _ _) reaches_twice
  have hdue : twice.exchange.due 10 = [(sentPost 0 b₀).keyed, (sentPost 1 b₁).keyed] := by
    rw [Exchange.due, hposts, hgets]
    rfl
  have hnone : twice.exchange.due twice.clock = [] := by
    rw [Exchange.due, hposts, hgets, hclock]
    rfl
  have hpost : twice.exchange.post? "POLKADOT-2000/0" = some (sentPost 0 b₀) := by
    rw [Exchange.post?, hposts]
    exact List.find?_cons_of_pos (decide_eq_true (key_sentPost_zero b₀))
  have hle : twice.clock ≤ 10 := by omega
  have hround := expire_round hh.sound hv hle ⟨0⟩
  rw [hdue] at hround
  rcases hexpire : twice.expire ⟨0⟩ 10 with ⟨r, h'⟩
  rw [hexpire] at hround
  obtain ⟨⟨m', ho⟩, r', hlast, rfl⟩ := (hh.assets.at 10).refunds hdecode₀ hdecode₁ hround
  cases hlast with
  | done hsame =>
    have hkeys : (Except.ok ([] : List String) : Except Failure (List String)).map
        (fun ks => (sentPost 0 b₀).key :: (sentPost 1 b₁).key :: ks) =
          .ok ["POLKADOT-2000/0", "POLKADOT-2000/1"] := by
      rw [key_sentPost_zero, key_sentPost_one]
      rfl
    rw [hkeys] at hexpire
    refine ⟨h', congrArg (·, h') hkeys, hexpired _ _ _ _ hexpire,
      hh.assets.balance_eq, (hsame.isOnly ho).balance_eq, ?_⟩
    rw [hlate ⟨0⟩ _ _ hpost rfl, hnone]
    exact List.not_mem_nil

end Host
end Interchain
