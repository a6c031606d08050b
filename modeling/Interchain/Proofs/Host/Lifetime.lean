/-
What becomes of the requests of a host.

Only a dispatch tracks a request, and that in flight; only an answer or a timeout changes a
status, and only of a request in flight, which it ends.  So a turn leaves every request as it
was asked and ends it at most (`Turn.succeeds`), and over any turns a status changes once at
most (`request_table`).  The rounds of timeouts are where that takes an invariant: the
requests that a round has before it are untouched by those it has ended.
-/
import Interchain.Proofs.Asset.Atomicity
import Interchain.Proofs.Host.Settlement
import Interchain.Proofs.Host.Timeouts
import Interchain.Proofs.Host.Turns

namespace Interchain

def RequestStatus.Settles (s s' : RequestStatus) : Prop :=
  s' = s ∨ s = .dispatched ∧ (s' = .responded ∨ s' = .timedOut)

theorem RequestStatus.Settles.trans {s s' s'' : RequestStatus} (h : s.Settles s')
    (h' : s'.Settles s'') : s.Settles s'' := by
  rcases h with rfl | ⟨rfl, hend⟩
  · exact h'
  · rcases h' with rfl | ⟨rfl, -⟩
    · exact Or.inr ⟨rfl, hend⟩
    · rcases hend with hend | hend
      · cases hend
      · cases hend

def statusSet (key : String) (s : RequestStatus) (e : String × Request × RequestStatus) :
    String × Request × RequestStatus :=
  if e.1 = key then (e.1, e.2.1, s) else e

/-- The same requests under the same keys, of which some in flight have ended. -/
structure Settled (t t' : Table String (Request × RequestStatus)) : Prop where
  keys : Table.keys t' = Table.keys t
  kept : ∀ {key r s}, (key, r, s) ∈ t → ∃ s', (key, r, s') ∈ t' ∧ s.Settles s'

namespace Settled

variable {t t' t'' : Table String (Request × RequestStatus)} {key : String} {r : Request}
  {s : RequestStatus}

theorem refl (t : Table String (Request × RequestStatus)) : Settled t t :=
  ⟨rfl, fun h => ⟨_, h, Or.inl rfl⟩⟩

theorem trans (h : Settled t t') (h' : Settled t' t'') : Settled t t'' := by
  refine ⟨h'.keys.trans h.keys, fun hmem => ?_⟩
  obtain ⟨s', hmem', hsettles⟩ := h.kept hmem
  obtain ⟨s'', hmem'', hsettles'⟩ := h'.kept hmem'
  exact ⟨s'', hmem'', hsettles.trans hsettles'⟩

/-- Nothing is there that was not, under a key of its own. -/
theorem asked (h : Settled t t') (hnodup : (Table.keys t).Nodup) (hmem : (key, r, s) ∈ t') :
    ∃ s₀, (key, r, s₀) ∈ t := by
  have hkey : key ∈ Table.keys t := h.keys ▸ List.mem_map_of_mem (f := Prod.fst) hmem
  obtain ⟨⟨k, r₀, s₀⟩, hold, rfl⟩ := List.mem_map.1 hkey
  obtain ⟨s₁, hkept, -⟩ := h.kept hold
  have hsame := Table.get?_of_mem (h.keys ▸ hnodup) hkept
  rw [Table.get?_of_mem (h.keys ▸ hnodup) hmem] at hsame
  cases hsame
  exact ⟨s₀, hold⟩

theorem mem_statusSet_of_ne {e : String × Request × RequestStatus} (he : e ∈ t)
    (hne : e.1 ≠ key) : e ∈ t.map (statusSet key s) :=
  List.mem_map.2 ⟨e, he, if_neg hne⟩

theorem of_end (hnodup : (Table.keys t).Nodup) (hmem : (key, r, .dispatched) ∈ t)
    (hend : s = .responded ∨ s = .timedOut) : Settled t (t.map (statusSet key s)) := by
  refine ⟨?_, ?_⟩
  · exact map_changed_of_eq (f := Prod.fst) (fun _ _ _ => rfl)
  · intro k q u hk
    by_cases hkey : k = key
    · subst hkey
      have hsame := Table.get?_of_mem hnodup hk
      rw [Table.get?_of_mem hnodup hmem] at hsame
      cases hsame
      exact ⟨s, List.mem_map.2 ⟨_, hmem, if_pos rfl⟩, Or.inr ⟨rfl, hend⟩⟩
    · exact ⟨u, mem_statusSet_of_ne hk hkey, Or.inl rfl⟩

end Settled

namespace Exchange

variable {x y : Exchange} {kind : SubmissionKind} {source key envelope : String}
  {s s' : RequestStatus}

/-! ## Status -/

theorem Numbered.eq_of_key (hx : x.Numbered) {e e' : String × Request × RequestStatus}
    (he : e ∈ x.requests) (he' : e' ∈ x.requests) (hkey : e.1 = e'.1) : e = e' :=
  List.inj_on_of_nodup_map hx.nodup he he' hkey

theorem requests_setPostStatus (hx : x.Numbered) {r : PostRequest}
    (hmem : (key, .post r, s) ∈ x.requests) (s' : RequestStatus) :
    (x.setPostStatus key s').requests = x.requests.map (statusSet key s') := by
  have hposts : (x.setPostStatus key s').posts.map TrackedPost.entry =
      (x.posts.map TrackedPost.entry).map (statusSet key s') :=
    map_changed (q := fun e : String × Request × RequestStatus => e.1 = key) (fun _ _ => rfl)
  have hgets : (x.gets.map TrackedGet.entry).map (statusSet key s') =
      x.gets.map TrackedGet.entry := by
    rw [List.map_map]
    refine List.map_congr_left (fun g hg => if_neg (fun hkey => ?_))
    have hgmem : g.entry ∈ x.requests := List.mem_append_right _ (List.mem_map_of_mem hg)
    have hkind : Request.get g.request = .post r :=
      congrArg (fun e => e.2.1) (hx.eq_of_key hgmem hmem hkey)
    cases hkind
  rw [requests, requests, hposts, List.map_append, hgets]
  rfl

theorem requests_setGetStatus (hx : x.Numbered) {r : GetRequest}
    (hmem : (key, .get r, s) ∈ x.requests) (s' : RequestStatus) :
    (x.setGetStatus key s').requests = x.requests.map (statusSet key s') := by
  have hgets : (x.setGetStatus key s').gets.map TrackedGet.entry =
      (x.gets.map TrackedGet.entry).map (statusSet key s') :=
    map_changed (q := fun e : String × Request × RequestStatus => e.1 = key) (fun _ _ => rfl)
  have hposts : (x.posts.map TrackedPost.entry).map (statusSet key s') =
      x.posts.map TrackedPost.entry := by
    rw [List.map_map]
    refine List.map_congr_left (fun p hp => if_neg (fun hkey => ?_))
    have hpmem : p.entry ∈ x.requests := List.mem_append_left _ (List.mem_map_of_mem hp)
    have hkind : Request.post p.request = .get r :=
      congrArg (fun e => e.2.1) (hx.eq_of_key hpmem hmem hkey)
    cases hkind
  rw [requests, requests, hgets, List.map_append, hposts]
  rfl

def Awaits (x : Exchange) (es : Table String (Request × RequestStatus)) : Prop :=
  (Table.keys es).Nodup ∧ ∀ e ∈ es, e ∈ x.requests

theorem awaits_posts (hx : x.Numbered) : x.Awaits (x.posts.map TrackedPost.entry) := by
  have hnodup := hx.nodup
  rw [Table.keys, requests, List.map_append] at hnodup
  exact ⟨(List.nodup_append.1 hnodup).1, fun e he => List.mem_append_left _ he⟩

theorem awaits_gets (hx : x.Numbered) : x.Awaits (x.gets.map TrackedGet.entry) := by
  have hnodup := hx.nodup
  rw [Table.keys, requests, List.map_append] at hnodup
  exact ⟨(List.nodup_append.1 hnodup).2.1, fun e he => List.mem_append_right _ he⟩

theorem Awaits.tail {e : String × Request × RequestStatus}
    {es : Table String (Request × RequestStatus)} (h : x.Awaits (e :: es)) : x.Awaits es :=
  ⟨(List.nodup_cons.1 h.1).2, fun e' he' => h.2 e' (List.mem_cons_of_mem _ he')⟩

/-- A status that is set leaves the requests under other keys as they are. -/
theorem Awaits.statusSet {e : String × Request × RequestStatus}
    {es : Table String (Request × RequestStatus)} (h : x.Awaits (e :: es))
    (hy : y.requests = x.requests.map (statusSet e.1 s)) : y.Awaits es := by
  refine ⟨h.tail.1, fun e' he' => ?_⟩
  have hne : e'.1 ≠ e.1 := by
    intro hkey
    have hfresh := (List.nodup_cons.1 h.1).1
    rw [← hkey] at hfresh
    exact hfresh (List.mem_map_of_mem he')
  rw [hy]
  exact Settled.mem_statusSet_of_ne (h.tail.2 e' he') hne

/-! ## Submissions -/

/-- A submission tracks nothing, or is accepted and tracks one request in flight. -/
theorem requests_submit (hx : x.Numbered) (source : String) (kind : SubmissionKind)
    (envelope : String) :
    (submit source kind envelope x).2.requests = x.requests ∨
      (submit source kind envelope x).1.isAccepted = true ∧
        ∃ key r, (submit source kind envelope x).2.requests.Perm
          ((key, r, .dispatched) :: x.requests) := by
  by_cases hkind : kind = .response
  · subst hkind
    exact Or.inl (submit_response_idles source envelope x).requests
  · cases hl : x.lane? source with
    | none =>
      rw [submit, hl]
      exact Or.inl rfl
    | some l =>
      have hfiles := submit_files hx hl hkind envelope
      rcases hsubmit : submit source kind envelope x with ⟨reply, y⟩
      rw [hsubmit] at hfiles
      cases hfiles with
      | tracked _ _ hrequests => exact Or.inr ⟨rfl, _, _, hrequests⟩
      | refused hrequests => exact Or.inl hrequests

/-- A submission that is not accepted tracks nothing. -/
theorem requests_of_declines (hx : x.Numbered) (h : (gatewayOf source).Declines x y) :
    y.requests = x.requests := by
  obtain rfl | ⟨kind, envelope, reply, hsubmit, hreply⟩ := Gateway.declines_ofReplies h
  · rfl
  · have htracked := requests_submit hx source kind envelope
    rw [hsubmit] at htracked
    rcases htracked with hsame | ⟨haccepted, -⟩
    · exact hsame
    · rw [hreply] at haccepted
      cases haccepted

theorem requests_acknowledged (source : String) (m : AssetModule) (r : PostRequest)
    (x : Exchange) : (Site.acknowledged (gatewayOf source) m r x).requests = x.requests := by
  rw [Site.acknowledged]
  cases Site.acknowledgement m r with
  | error f => rfl
  | ok envelope => exact (submit_response_idles source envelope x).requests

end Exchange

namespace Host

open Exchange (Numbered)

variable {h h' h₁ : Host} {now : Timestamp} {id key : String} {c : ModuleCall}

/-! ## Calls -/

/-- A call that dispatches nothing leaves every request as it is, whatever becomes of it. -/
theorem requests_call (hx : h.exchange.Numbered) (hc : c.dispatches = none) (id : String)
    (now : Timestamp) : (h.call id now c).2.exchange.requests = h.exchange.requests := by
  rw [call]
  cases h.moduleOf id with
  | error e => rfl
  | ok m =>
    show (Site.call (Exchange.gatewayOf m.chain.id) now c
      ⟨m, h.exchange, h.metrics⟩).2.gateway.requests = _
    rcases hsite : Site.call (Exchange.gatewayOf m.chain.id) now c ⟨m, h.exchange, h.metrics⟩
      with ⟨_ | _, s⟩
    · exact Exchange.requests_of_declines hx (Site.call_error hsite).2
    · obtain ⟨l, body, hcommit, -⟩ := Site.call_ok hsite
      rcases s with ⟨assets, x, metrics⟩
      cases hcommit with
      | transfer => cases hc
      | dispatchGet => cases hc
      | onAccept => exact Exchange.requests_acknowledged _ _ _ _
      | mint | onPostResponse | onGetResponse | onPostTimeout | onGetTimeout => rfl

/-- Some requests have ended, at one time. -/
structure Ends (h h' : Host) : Prop where
  requests : Settled h.exchange.requests h'.exchange.requests
  clock : h'.clock = h.clock

theorem Ends.refl (h : Host) : h.Ends h := ⟨.refl _, rfl⟩

theorem Ends.trans {h'' : Host} (he : h.Ends h') (he' : h'.Ends h'') : h.Ends h'' :=
  ⟨he.requests.trans he'.requests, he'.clock.trans he.clock⟩

theorem ends_of_same (hrequests : h'.exchange.requests = h.exchange.requests)
    (hclock : h'.clock = h.clock) : h.Ends h' :=
  ⟨hrequests ▸ .refl _, hclock⟩

theorem call_ends (hx : h.exchange.Numbered) (hc : c.dispatches = none) (id : String)
    (now : Timestamp) : h.Ends (h.call id now c).2 :=
  ends_of_same (requests_call hx hc id now) (clock_call h id now c)

/-! ## Answers -/

theorem mem_of_post? {p : TrackedPost} (hpost : h.exchange.post? key = some p) :
    (key, .post p.request, p.status) ∈ h.exchange.requests := by
  obtain ⟨hp, hkey⟩ := Exchange.of_post?_eq_some hpost
  rw [← hkey]
  exact List.mem_append_left _ (List.mem_map_of_mem hp)

theorem mem_of_trackedPost {p : TrackedPost} (hp : h.trackedPost key = .ok p) :
    (key, .post p.request, p.status) ∈ h.exchange.requests :=
  mem_of_post? (trackedPost_eq_ok hp)

theorem mem_of_trackedGet {g : TrackedGet} (hg : h.trackedGet key = .ok g) :
    (key, .get g.request, g.status) ∈ h.exchange.requests := by
  rw [trackedGet] at hg
  split at hg
  · next k hk =>
    cases hg
    obtain ⟨hmem, hkey⟩ := Exchange.of_get?_eq_some hk
    rw [← hkey]
    exact List.mem_append_right _ (List.mem_map_of_mem hmem)
  · cases hg

theorem closed_ends (hx : h.exchange.Numbered) {r : PostRequest} {s : RequestStatus}
    (hmem : (key, .post r, .dispatched) ∈ h.exchange.requests)
    (hend : s = .responded ∨ s = .timedOut) : h.Ends (h.closed key s) := by
  refine ⟨?_, rfl⟩
  show Settled _ (h.exchange.setPostStatus key s).requests
  rw [Exchange.requests_setPostStatus hx hmem]
  exact .of_end hx.nodup hmem hend

theorem closedGet_ends (hx : h.exchange.Numbered) {r : GetRequest} {s : RequestStatus}
    (hmem : (key, .get r, .dispatched) ∈ h.exchange.requests)
    (hend : s = .responded ∨ s = .timedOut) : h.Ends (h.closedGet key s) := by
  refine ⟨?_, rfl⟩
  show Settled _ (h.exchange.setGetStatus key s).requests
  rw [Exchange.requests_setGetStatus hx hmem]
  exact .of_end hx.nodup hmem hend

theorem handBack_ends (hx : h.exchange.Numbered) (now : Timestamp) (key : String) :
    h.Ends (h.handBack now key).2 := by
  rw [handBack]
  split
  · exact call_ends hx rfl _ now
  · exact .refl h
  · exact .refl h

theorem deliver_ends (hx : h.exchange.Numbered) (now : Timestamp) (key : String) :
    h.Ends (h.deliver now key).2 := by
  have hx₀ : (h.setDelivering (some key)).exchange.Numbered :=
    numbered_kept _ _ hx (.delivering _)
  rcases hdeliver : h.deliver now key with ⟨r, h'⟩
  cases delivery_of_deliver hdeliver with
  | declined f => exact .refl h
  | @refused p _ _ _ _ hcall =>
    have hcalled := call_ends (c := .onAccept h.address p.request) hx₀ rfl p.request.dest now
    rw [hcall] at hcalled
    exact ⟨hcalled.requests, hcalled.clock⟩
  | @accepted p h₁ _ _ hpost hstatus hcall hback =>
    have hcalled := call_ends (c := .onAccept h.address p.request) hx₀ rfl p.request.dest now
    have hsame := requests_call (c := .onAccept h.address p.request) hx₀ rfl p.request.dest now
    rw [hcall] at hcalled hsame
    -- The destination has accepted the post, which is still in flight.
    have hx₁ : (h₁.setDelivering none).exchange.Numbered :=
      numbered_kept.moves hx₀ ((moves_of_call hcall).tail (.delivering none))
    have hmem := mem_of_post? hpost
    rw [hstatus] at hmem
    have hmem₁ : (key, .post p.request, .dispatched) ∈
        (h₁.setDelivering none).exchange.requests := hsame.symm ▸ hmem
    have hclosed := closed_ends hx₁ hmem₁ (Or.inl rfl)
    have haccepted : h.Ends (h₁.setDelivering none) := ⟨hcalled.requests, hcalled.clock⟩
    have hx₂ := numbered_kept _ _ hx₁ (.postStatus key .responded)
    have hlast := handBack_ends hx₂ now key
    rw [hback] at hlast
    exact (haccepted.trans hclosed).trans hlast

theorem respondToGet_ends (hx : h.exchange.Numbered) (now : Timestamp) (key : String)
    (values : List StorageValue) : h.Ends (h.respondToGet now key values).2 := by
  rw [respondToGet]
  split
  · exact .refl h
  · next g hg =>
    split
    · exact .refl h
    · next hanswerable =>
      have hmem := mem_of_trackedGet hg
      rw [dispatched_of_answerable hanswerable] at hmem
      have hcalled := call_ends (c := .onGetResponse h.address ⟨g.request, values⟩) hx rfl
        g.request.source now
      have hsame := requests_call (c := .onGetResponse h.address ⟨g.request, values⟩) hx rfl
        g.request.source now
      rcases hcall : h.call g.request.source now (.onGetResponse h.address ⟨g.request, values⟩)
        with ⟨_ | _, h₁⟩
      · rw [hcall] at hcalled
        exact hcalled
      · rw [hcall] at hcalled hsame
        have hx₁ := numbered_kept.moves hx (moves_of_call hcall)
        exact hcalled.trans (closedGet_ends hx₁ (hsame.symm ▸ hmem) (Or.inl rfl))

/-! ## Rounds of timeouts -/

theorem expirePosts_ends {ps : List TrackedPost} (hx : h.exchange.Numbered)
    (ha : h.exchange.Awaits (ps.map TrackedPost.entry)) (now : Timestamp) :
    h.Ends (expirePosts now ps h).2 := by
  induction ps generalizing h with
  | nil => exact .refl h
  | cons p ps ih =>
    by_cases hdue : p.IsDue h.clock
    · have hcalled := call_ends (c := .onPostTimeout h.address p.request) hx rfl
        p.request.source now
      rw [expirePosts_due hdue]
      rcases hcall : h.call p.request.source now (.onPostTimeout h.address p.request)
        with ⟨_ | _, h₁⟩
      · rw [hcall] at hcalled
        exact hcalled
      · have hexchange := exchange_of_timeout (Or.inl ⟨_, rfl⟩) hcall
        have hx₁ : h₁.exchange.Numbered := hexchange ▸ hx
        have hmem : (p.key, .post p.request, .dispatched) ∈ h₁.exchange.requests := by
          rw [hexchange, ← hdue.1]
          exact ha.2 p.entry List.mem_cons_self
        have ha₁ := ha.statusSet (y := (h₁.closed p.key .timedOut).exchange)
          ((Exchange.requests_setPostStatus hx₁ hmem .timedOut).trans (by rw [hexchange]; rfl))
        rw [hcall] at hcalled
        have hclosed := hcalled.trans (closed_ends hx₁ hmem (Or.inr rfl))
        exact hclosed.trans (ih (numbered_kept _ _ hx₁ (.postStatus p.key .timedOut)) ha₁)
    · have hskip : expirePosts now (p :: ps) h = expirePosts now ps h := if_neg hdue
      rw [hskip]
      exact ih hx ha.tail

theorem expireGets_ends {gs : List TrackedGet} (hx : h.exchange.Numbered)
    (ha : h.exchange.Awaits (gs.map TrackedGet.entry)) (now : Timestamp) :
    h.Ends (expireGets now gs h).2 := by
  induction gs generalizing h with
  | nil => exact .refl h
  | cons g gs ih =>
    by_cases hdue : g.IsDue h.clock
    · have hcalled := call_ends (c := .onGetTimeout h.address g.request) hx rfl
        g.request.source now
      rw [expireGets_due hdue]
      rcases hcall : h.call g.request.source now (.onGetTimeout h.address g.request)
        with ⟨_ | _, h₁⟩
      · rw [hcall] at hcalled
        exact hcalled
      · have hexchange := exchange_of_timeout (Or.inr ⟨_, rfl⟩) hcall
        have hx₁ : h₁.exchange.Numbered := hexchange ▸ hx
        have hmem : (g.key, .get g.request, .dispatched) ∈ h₁.exchange.requests := by
          rw [hexchange, ← hdue.1]
          exact ha.2 g.entry List.mem_cons_self
        have ha₁ := ha.statusSet (y := (h₁.closedGet g.key .timedOut).exchange)
          ((Exchange.requests_setGetStatus hx₁ hmem .timedOut).trans (by rw [hexchange]; rfl))
        rw [hcall] at hcalled
        have hclosed := hcalled.trans (closedGet_ends hx₁ hmem (Or.inr rfl))
        exact hclosed.trans (ih (numbered_kept _ _ hx₁ (.getStatus g.key .timedOut)) ha₁)
    · have hskip : expireGets now (g :: gs) h = expireGets now gs h := if_neg hdue
      rw [hskip]
      exact ih hx ha.tail

/-- A round of timeouts ends requests at the time that it moves the clock to. -/
theorem expire_ends (hx : h.exchange.Numbered) {clock : Int} (hclock : h.clock ≤ clock)
    (now : Timestamp) : Ends { h with clock := clock } (h.expire now clock).2 := by
  have hposts := expirePosts_ends (h := { h with clock := clock }) hx (Exchange.awaits_posts hx) now
  have hmoves := expirePosts_moves now h.exchange.posts { h with clock := clock }
  rw [expire, if_neg (Int.not_lt.2 hclock)]
  simp only
  split
  · next hround =>
    rw [hround] at hposts
    exact hposts
  · next h₁ hround =>
    rw [hround] at hposts hmoves
    have hx₁ : h₁.exchange.Numbered :=
      numbered_kept.moves (numbered_kept _ _ hx (.clock clock)) hmoves
    have hgets := expireGets_ends hx₁ (Exchange.awaits_gets hx₁) now
    split
    · next hround₁ =>
      rw [hround₁] at hgets
      exact hposts.trans hgets
    · next hround₁ =>
      rw [hround₁] at hgets
      exact hposts.trans hgets

/-! ## Turns -/

/-- What the requests of a host come to in one turn: each is there as it was asked and has
ended at most, a new one is in flight, and the clock does not go back. -/
structure Succeeds (h h' : Host) : Prop where
  kept : ∀ {key r s}, (key, r, s) ∈ h.exchange.requests →
    ∃ s', (key, r, s') ∈ h'.exchange.requests ∧ s.Settles s'
  started : ∀ {key r s}, (key, r, s) ∈ h'.exchange.requests →
    key ∉ Table.keys h.exchange.requests → s = .dispatched
  clock : h.clock ≤ h'.clock

theorem Ends.succeeds (he : h.Ends h') : h.Succeeds h' := by
  refine ⟨he.requests.kept, fun hmem hnew => ?_, Int.le_of_eq he.clock.symm⟩
  have hkey := List.mem_map_of_mem (f := Prod.fst) hmem
  exact absurd (he.requests.keys ▸ hkey) hnew

theorem call_succeeds (hx : h.exchange.Numbered) (id : String) (now : Timestamp)
    (c : ModuleCall) : h.Succeeds (h.call id now c).2 := by
  have hclock := clock_call h id now c
  rw [call] at hclock ⊢
  cases hm : h.moduleOf id with
  | error e => exact (Ends.refl h).succeeds
  | ok m =>
    rw [hm] at hclock
    have hsame : ∀ x : Exchange, x.requests = h.exchange.requests →
        (h.callModule m now c).2.exchange = x → h.Succeeds (h.callModule m now c).2 :=
      fun x hx hcall => (ends_of_same (hcall ▸ hx) hclock).succeeds
    rcases submits_callModule h m now c with hcall | ⟨kind, envelope, hcall⟩
    · exact hsame _ rfl hcall
    · rcases Exchange.requests_submit hx m.chain.id kind envelope with
        hsubmit | ⟨-, key, r, hsubmit⟩
      · exact hsame _ hsubmit hcall
      · have hcall : (h.callModule m now c).2.exchange =
            (Exchange.submit m.chain.id kind envelope h.exchange).2 := hcall
        rw [← hcall] at hsubmit
        refine ⟨fun hmem => ⟨_, hsubmit.mem_iff.2 (List.mem_cons_of_mem _ hmem), Or.inl rfl⟩,
          fun hmem hnew => ?_, Int.le_of_eq hclock.symm⟩
        rcases List.mem_cons.1 (hsubmit.mem_iff.1 hmem) with hmem | hmem
        · exact congrArg (fun e => e.2.2) hmem
        · exact absurd (List.mem_map_of_mem hmem) hnew

theorem orSame_ends {x : Except Cause Host} (hx : ∀ h', x = .ok h' → h.Ends h') :
    h.Ends (h.orSame x).2 := by
  cases x with
  | error e => exact .refl h
  | ok h' => exact hx h' rfl

theorem updateModule_ends {f : AssetModule → AssetModule} (hu : h.updateModule id f = .ok h') :
    h.Ends h' := by
  obtain ⟨m, -, hu⟩ := bind_eq_ok.1 hu
  cases hu
  exact ends_of_same rfl rfl

/-- An operation is a call of a module, or ends requests at a time that is not before. -/
theorem step_cases (hx : h.exchange.Numbered) (now : Timestamp) (a : Action) :
    (∃ id c, h.step now a = h.call id now c) ∨
      ∃ clock, h.clock ≤ clock ∧ Ends { h with clock := clock } (h.step now a).2 := by
  have hnow : ∀ h', h.Ends h' →
      ∃ clock, h.clock ≤ clock ∧ Ends { h with clock := clock } h' :=
    fun h' he => ⟨h.clock, Int.le_refl _, he⟩
  cases a with
  | register id address l built =>
    refine Or.inr (hnow _ (orSame_ends (fun h' hr => ?_)))
    obtain ⟨⟨name, h₁⟩, hreg, rfl⟩ := map_eq_ok.1 hr
    obtain ⟨m, -, -, -, -, hregistered⟩ := register_eq_ok hreg
    rw [hregistered]
    exact ends_of_same rfl rfl
  | transfer id caller p => exact Or.inl ⟨id, _, rfl⟩
  | dispatchGet id caller p => exact Or.inl ⟨id, _, rfl⟩
  | mint id caller account n => exact Or.inl ⟨id, _, rfl⟩
  | deliver key => exact Or.inr (hnow _ (deliver_ends hx now key))
  | respondToGet key values => exact Or.inr (hnow _ (respondToGet_ends hx now key values))
  | expire clock =>
    refine Or.inr ?_
    show ∃ clock', _ ∧ Ends { h with clock := clock' } (h.expire now clock).2
    -- a clock that would go back stays where it is
    by_cases hback : clock < h.clock
    · rw [expire, if_pos hback]
      exact hnow _ (.refl h)
    · have hclock := Int.not_lt.1 hback
      exact ⟨clock, hclock, expire_ends hx hclock now⟩
  | configure id command =>
    refine Or.inr (hnow _ (orSame_ends (fun h' hc => ?_)))
    obtain ⟨l, -, hc⟩ := bind_eq_ok.1 hc
    cases hc
    exact ends_of_same rfl rfl
  | drainEvents id => exact Or.inr (hnow _ (orSame_ends (fun h' => updateModule_ends)))
  | discardEvents id count => exact Or.inr (hnow _ (orSame_ends (fun h' => updateModule_ends)))

theorem Turn.cases (hx : h.exchange.Numbered) (ht : h.Turn h') :
    (∃ id now c, h' = (h.call id now c).2) ∨
      ∃ clock, h.clock ≤ clock ∧ Ends { h with clock := clock } h' := by
  cases ht with
  | step now a =>
    rcases step_cases hx now a with ⟨id, c, hcall⟩ | hends
    · exact Or.inl ⟨id, now, c, congrArg Prod.snd hcall⟩
    · exact Or.inr hends
  | call id now c => exact Or.inl ⟨id, now, c, rfl⟩

theorem Turn.succeeds (hx : h.exchange.Numbered) (ht : h.Turn h') : h.Succeeds h' := by
  rcases ht.cases hx with ⟨id, now, c, rfl⟩ | ⟨clock, hclock, hends⟩
  · exact call_succeeds hx id now c
  · obtain ⟨hkept, hstarted, hlater⟩ := hends.succeeds
    exact ⟨hkept, hstarted, Int.le_trans hclock hlater⟩

/-- Over any turns a request stays as it was asked and ends once at most, and the clock does
not go back. -/
theorem Reaches.kept (hx : h.exchange.Numbered) (hreach : h.Reaches h') :
    h.clock ≤ h'.clock ∧ ∀ {key r s}, (key, r, s) ∈ h.exchange.requests →
      ∃ s', (key, r, s') ∈ h'.exchange.requests ∧ s.Settles s' := by
  induction hreach with
  | refl => exact ⟨Int.le_refl _, fun hmem => ⟨_, hmem, Or.inl rfl⟩⟩
  | tail hfirst hturn ih =>
    obtain ⟨hkept, -, hlater⟩ := hturn.succeeds (Reaches.numbered hx hfirst)
    refine ⟨Int.le_trans ih.1 hlater, fun hmem => ?_⟩
    obtain ⟨s', hmem', hsettles⟩ := ih.2 hmem
    obtain ⟨s'', hmem'', hsettles'⟩ := hkept hmem'
    exact ⟨s'', hmem'', hsettles.trans hsettles'⟩

/-- Whatever host is reached, its requests are numbered without gaps by source, posts and
gets alike, each under a key that no other has or could have.  From there on each stays as
it was asked, ends once at most, and a new one starts in flight; the clock does not go
back.  A submission of a post or a get takes the next nonce and tracks one request besides
those there are, or is refused, counted, and takes and tracks nothing. -/
theorem request_table {address : String} {clock : Int} {d : Draws}
    (hreach : (Host.new address clock d).Reaches h) :
    h.exchange.Numbered ∧
      (∀ s t m n, requestKey s m = requestKey t n → s = t ∧ m = n) ∧
      (∀ h', h.Reaches h' → h.clock ≤ h'.clock ∧
        ∀ key r s, (key, r, s) ∈ h.exchange.requests →
          ∃ s', (key, r, s') ∈ h'.exchange.requests ∧ s.Settles s') ∧
      (∀ h', h.Turn h' → ∀ key r s, (key, r, s) ∈ h'.exchange.requests →
        key ∉ Table.keys h.exchange.requests → s = .dispatched) ∧
      ∀ source l kind envelope, h.exchange.lane? source = some l → kind ≠ .response →
        Exchange.Files source h.exchange
          (Exchange.submit source kind envelope h.exchange).1
          (Exchange.submit source kind envelope h.exchange).2 := by
  have hx : h.exchange.Numbered := Reaches.numbered (Exchange.numbered_empty d) hreach
  refine ⟨hx, fun s t m n => requestKey_injective, fun h' hlater => ?_, fun h' hturn => ?_,
    fun source l kind envelope hl hkind => Exchange.submit_files hx hl hkind envelope⟩
  · obtain ⟨hclock, hkept⟩ := Reaches.kept hx hlater
    exact ⟨hclock, fun key r s hmem => hkept hmem⟩
  · exact fun key r s hmem hnew => (hturn.succeeds hx).started hmem hnew

theorem reaches_underway : vacant.Reaches underway := by
  rw [underway]
  exact reaches_run vacant _

/-- Bytes that are no envelope are refused. -/
theorem submit_unreadable {x : Exchange} {l : Lane} {source envelope : String}
    (hl : x.lane? source = some l) (hdecode : (PostEnvelope.decode envelope).isOk = false) :
    (Exchange.submit source .post envelope x).1.isAccepted = false := by
  simp only [Exchange.submit, hl, Exchange.submitPost]
  cases hbad : PostEnvelope.decode envelope with
  | error c => rfl
  | ok e =>
    rw [hbad] at hdecode
    cases hdecode

/-- A transfer is on its way under its key, a round of timeouts later it is still what it
was, and bytes that are no envelope are counted. -/
theorem request_table_underway :
    underway.exchange.Numbered ∧
      ∃ r, ("POLKADOT-2000/0", r, .dispatched) ∈ underway.exchange.requests ∧
        (∀ now, underway.clock ≤ (underway.step now (.expire 5)).2.clock ∧
          ∃ s, ("POLKADOT-2000/0", r, s) ∈ (underway.step now (.expire 5)).2.exchange.requests ∧
            RequestStatus.dispatched.Settles s) ∧
        (Exchange.submit r.source .post "0x" underway.exchange).2.rejections =
          underway.exchange.rejections + 1 := by
  obtain ⟨hx, -, hlater, -, hsubmit⟩ := request_table reaches_underway
  obtain ⟨p, hpost, hstatus, -⟩ := underway_tracked
  have hmem : ("POLKADOT-2000/0", Request.post p.request, .dispatched) ∈
      underway.exchange.requests := by
    have htracked : underway.trackedPost "POLKADOT-2000/0" = .ok p := by rw [trackedPost, hpost]
    rw [← hstatus]
    exact mem_of_trackedPost htracked
  refine ⟨hx, _, hmem, fun now => ?_, ?_⟩
  · obtain ⟨hclock, hkept⟩ := hlater _ (.single (.step now (.expire 5)))
    exact ⟨hclock, hkept _ _ _ hmem⟩
  · have hs : underway.Sound := (sound_new _ _ _).run _
    have hget := Exchange.get?_of_post? hs.exchange hpost
    obtain ⟨l, hl⟩ := Exchange.exists_lane? (hs.exchange.tracked hget).source
    have hfiles := hsubmit _ l .post "0x" hl (by decide)
    have hdecode : (PostEnvelope.decode "0x").isOk = false := by decide +kernel
    have hrefused := submit_unreadable hl hdecode
    rw [Request.source]
    rcases hreply : Exchange.submit p.request.source .post "0x" underway.exchange with ⟨reply, y⟩
    rw [hreply] at hfiles hrefused
    cases hfiles with
    | tracked => cases hrefused
    | refused _ _ hrejections => exact hrejections

end Host
end Interchain
