/-
The requests that an exchange keeps, and the numbers that they go by.

`requests` is one table of all posts and gets, with their keys and their status.  A
submission of a post or a get adds one request to it, in flight and under the next nonce of
its source, or is refused, counted, and adds none (`submit_files`).  So the nonces of every
source stay the numbers up to its next one, each request stands under the key of its source
and nonce, and no two under one key (`Numbered`).  No other move of a host touches a key or
a nonce, so that after any moves a host is numbered (`numbered_kept`).
-/
import Interchain.Proofs.Host.Moves

namespace Interchain

/-- A post or a get. -/
inductive Request
  | post (r : PostRequest)
  | get (r : GetRequest)
deriving DecidableEq

namespace Request

def source : Request → String
  | .post r => r.source
  | .get r => r.source

def nonce : Request → Int
  | .post r => r.nonce
  | .get r => r.nonce

end Request

def TrackedPost.entry (p : TrackedPost) : String × Request × RequestStatus :=
  (p.key, .post p.request, p.status)

def TrackedGet.entry (g : TrackedGet) : String × Request × RequestStatus :=
  (g.key, .get g.request, g.status)

/-- Entries that change are found as before, changed. -/
theorem find?_changed {α : Type} {f : α → String} {g : α → α} (hg : ∀ a, f (g a) = f a)
    (as : List α) (j k : String) :
    (as.map (fun a => if f a = k then g a else a)).find? (fun a => f a = j) =
      (as.find? (fun a => f a = j)).map (fun a => if f a = k then g a else a) := by
  have hfound : (fun a => decide (f a = j)) ∘ (fun a => if f a = k then g a else a) =
      fun a => decide (f a = j) := by
    funext a
    show decide (f (if f a = k then g a else a) = j) = decide (f a = j)
    split
    · rw [hg]
    · rfl
  rw [List.find?_map, hfound]

namespace Exchange

variable {x x' y : Exchange} {l : Lane} {kind : SubmissionKind} {source key envelope : String}
  {reply : Reply}

def requests (x : Exchange) : Table String (Request × RequestStatus) :=
  x.posts.map TrackedPost.entry ++ x.gets.map TrackedGet.entry

theorem map_requests {α : Type} (f : String × Request × RequestStatus → α) (x : Exchange) :
    x.requests.map f =
      x.posts.map (fun p => f p.entry) ++ x.gets.map (fun g => f g.entry) := by
  rw [requests, List.map_append, List.map_map, List.map_map]
  rfl

theorem keys_requests (x : Exchange) :
    Table.keys x.requests = x.posts.map TrackedPost.key ++ x.gets.map TrackedGet.key :=
  map_requests Prod.fst x

/-- The nonce that the next request of a source is tracked under. -/
def nextNonce (x : Exchange) (source : String) : Nat :=
  ((x.lane? source).map Lane.nextNonce).getD 0

/-! ## Nonces -/

theorem lane?_updateLane (x : Exchange) (id : String) {f : Lane → Lane}
    (hf : ∀ l, (f l).chain = l.chain) (j : String) :
    (x.updateLane id f).lane? j = (x.lane? j).map (fun l => if l.chain.id = id then f l else l) :=
  find?_changed (f := fun l : Lane => l.chain.id) (fun l => congrArg Chain.id (hf l)) x.lanes j id

theorem lane?_updateLane_of_ne (x : Exchange) {id j : String} {f : Lane → Lane}
    (hf : ∀ l, (f l).chain = l.chain) (hne : j ≠ id) :
    (x.updateLane id f).lane? j = x.lane? j := by
  rw [lane?_updateLane x id hf]
  cases hj : x.lane? j with
  | none => rfl
  | some l =>
    obtain ⟨-, hid⟩ := of_lane?_eq_some hj
    rw [Option.map_some, hid, if_neg hne]

theorem nextNonce_of_lane? (hl : x.lane? source = some l) : x.nextNonce source = l.nextNonce := by
  rw [nextNonce, hl]
  rfl

theorem exists_lane? (hid : source ∈ x.outline.ids) : ∃ l, x.lane? source = some l := by
  obtain ⟨c, hc, rfl⟩ := List.mem_map.1 hid
  obtain ⟨l, hl, rfl⟩ := List.mem_map.1 hc
  refine Option.isSome_iff_exists.1 (List.find?_isSome.2 ⟨l, hl, ?_⟩)
  exact decide_eq_true rfl

theorem nextNonce_updateLane (x : Exchange) (id : String) {f : Lane → Lane}
    (hf : ∀ l, (f l).chain = l.chain ∧ (f l).nextNonce = l.nextNonce) :
    (x.updateLane id f).nextNonce = x.nextNonce := by
  funext j
  have hsame : Lane.nextNonce ∘ (fun l => if l.chain.id = id then f l else l) =
      Lane.nextNonce := by
    funext l
    show (if l.chain.id = id then f l else l).nextNonce = l.nextNonce
    split
    · exact (hf l).2
    · rfl
  rw [nextNonce, lane?_updateLane x id (fun l => (hf l).1), Option.map_map, hsame]
  rfl

/-- A nonce is taken of a lane that is there, and of no other. -/
theorem nextNonce_takeNonce {k : Lane} (hk : x.lane? l.chain.id = some k) (s : String) :
    (x.takeNonce l).nextNonce s =
      if s = l.chain.id then x.nextNonce s + 1 else x.nextNonce s := by
  have hlane := lane?_updateLane x l.chain.id
    (f := fun l => { l with nextNonce := l.nextNonce + 1 }) (fun _ => rfl) s
  rw [nextNonce, takeNonce, hlane]
  cases hs : x.lane? s with
  | none =>
    have hne : s ≠ l.chain.id := by
      intro h
      rw [h, hk] at hs
      cases hs
    rw [if_neg hne, nextNonce, hs]
    rfl
  | some k =>
    obtain ⟨-, hid⟩ := of_lane?_eq_some hs
    rw [nextNonce_of_lane? hs, Option.map_some, Option.map_some, Option.getD_some, hid]
    split
    · rfl
    · rfl

/-! ## Numbered exchanges -/

/-- Every request stands under the key of its source and nonce, no two under one key, and
the nonces of each source are the numbers up to its next one. -/
structure Numbered (x : Exchange) : Prop where
  nodup : (Table.keys x.requests).Nodup
  keyed : ∀ e ∈ x.requests, e.1 = requestKey e.2.1.source e.2.1.nonce
  nonces : ∀ source,
    ((x.requests.filter (fun e => e.2.1.source = source)).map (fun e => e.2.1.nonce)).Perm
      ((List.range (x.nextNonce source)).map Nat.cast)

theorem numbered_empty (d : Draws) : (empty d).Numbered :=
  ⟨List.nodup_nil, fun _ he => absurd he List.not_mem_nil, fun _ => .nil⟩

theorem Numbered.of_eq (hx : x.Numbered)
    (hrequests : x'.requests.map (fun e => (e.1, e.2.1)) = x.requests.map (fun e => (e.1, e.2.1)))
    (hnonces : x'.nextNonce = x.nextNonce) : x'.Numbered := by
  have hview : ∀ {α : Type} (f : String × Request → α),
      x'.requests.map (fun e => f (e.1, e.2.1)) = x.requests.map (fun e => f (e.1, e.2.1)) := by
    intro α f
    have hmap := congrArg (List.map f) hrequests
    rwa [List.map_map, List.map_map] at hmap
  refine ⟨?_, fun e he => ?_, fun s => ?_⟩
  · have hkeys : Table.keys x'.requests = Table.keys x.requests := hview Prod.fst
    rw [hkeys]
    exact hx.nodup
  · have hmem := List.mem_map_of_mem (f := fun e => (e.1, e.2.1)) he
    rw [hrequests] at hmem
    obtain ⟨e₀, he₀, heq⟩ := List.mem_map.1 hmem
    obtain ⟨hkey, hrequest⟩ := Prod.mk.inj heq
    rw [← hkey, ← hrequest]
    exact hx.keyed e₀ he₀
  · have hfilter : ∀ t : Table String (Request × RequestStatus),
        (t.filter (fun e => e.2.1.source = s)).map (fun e => e.2.1.nonce) =
          ((t.map (fun e => (e.1, e.2.1))).filter (fun e => e.2.source = s)).map
            (fun e => e.2.nonce) := by
      intro t
      rw [List.filter_map, List.map_map]
      rfl
    rw [hfilter, hrequests, ← hfilter, hnonces]
    exact hx.nonces s

/-- The key of the next request of a source is no key yet. -/
theorem Numbered.fresh (hx : x.Numbered) (source : String) :
    requestKey source (x.nextNonce source) ∉ Table.keys x.requests := by
  intro hmem
  obtain ⟨e, he, hkey⟩ := List.mem_map.1 hmem
  rw [hx.keyed e he] at hkey
  obtain ⟨hsource, hnonce⟩ := requestKey_injective hkey
  have htaken : e.2.1.nonce ∈ (List.range (x.nextNonce source)).map (Nat.cast : Nat → Int) := by
    refine (hx.nonces source).mem_iff.1 (List.mem_map.2 ⟨e, ?_, rfl⟩)
    exact List.mem_filter.2 ⟨he, decide_eq_true hsource⟩
  obtain ⟨n, hn, hcast⟩ := List.mem_map.1 htaken
  have hlt := List.mem_range.1 hn
  omega

/-- A request that takes the next nonce of its source is numbered along with the others. -/
theorem Numbered.track (hx : x.Numbered) {r : Request} {s : RequestStatus}
    (hsource : r.source = source) (hnonce : r.nonce = x.nextNonce source)
    (hrequests : x'.requests.Perm ((requestKey source (x.nextNonce source), r, s) :: x.requests))
    (hnonces : ∀ t, x'.nextNonce t = if t = source then x.nextNonce t + 1 else x.nextNonce t) :
    x'.Numbered := by
  refine ⟨?_, fun e he => ?_, fun t => ?_⟩
  · have hkeys := hrequests.map Prod.fst
    exact hkeys.nodup_iff.2 (List.nodup_cons.2 ⟨hx.fresh source, hx.nodup⟩)
  · rcases List.mem_cons.1 (hrequests.mem_iff.1 he) with rfl | he
    · rw [hsource, hnonce]
    · exact hx.keyed e he
  · refine ((hrequests.filter _).map _).trans ?_
    rw [hnonces]
    by_cases ht : t = source
    · subst ht
      have hown : decide (r.source = t) = true := decide_eq_true hsource
      simp only [List.filter_cons, hown, if_true, List.map_cons, List.range_succ,
        List.map_append, hnonce]
      exact ((hx.nonces t).cons _).trans (List.perm_append_singleton _ _).symm
    · have hother : decide (r.source = t) = false := by
        rw [hsource]
        exact decide_eq_false (Ne.symm ht)
      rw [if_neg ht]
      simp only [List.filter_cons, hother]
      exact hx.nonces t

/-! ## Submissions -/

/-- Nothing is tracked, taken or counted: what differs is in fault injectors, random draws
and acknowledgements. -/
structure Idles (x y : Exchange) : Prop where
  requests : y.requests = x.requests
  nonces : y.nextNonce = x.nextNonce
  rejections : y.rejections = x.rejections

/-- What a submission of a post or a get comes to: it is tracked, in flight and under the
next nonce of its source, or it is refused and counted. -/
inductive Files (source : String) (x : Exchange) : Reply → Exchange → Prop
  | tracked {r : Request} {y : Exchange} (source_eq : r.source = source)
      (nonce_eq : r.nonce = x.nextNonce source)
      (requests : y.requests.Perm
        ((requestKey source (x.nextNonce source), r, .dispatched) :: x.requests))
      (nonces : ∀ s, y.nextNonce s = if s = source then x.nextNonce s + 1 else x.nextNonce s)
      (rejections : y.rejections = x.rejections) :
      Files source x (.accepted (x.nextNonce source)) y
  | refused {kind : SubmissionKind} {reason : String} {y : Exchange}
      (requests : y.requests = x.requests) (nonces : y.nextNonce = x.nextNonce)
      (rejections : y.rejections = x.rejections + 1) :
      Files source x (.rejected kind reason) y

theorem Idles.refl (x : Exchange) : x.Idles x := ⟨rfl, rfl, rfl⟩

theorem Idles.numbered (h : x.Idles y) (hx : x.Numbered) : y.Numbered :=
  hx.of_eq (by rw [h.requests]) h.nonces

theorem Idles.files (h : x.Idles y) {z : Exchange} (hfiles : Files source y reply z) :
    Files source x reply z := by
  cases hfiles with
  | tracked hsource hnonce hrequests hnonces hrejections =>
    rw [h.nonces] at hnonce hrequests ⊢
    rw [h.requests] at hrequests
    refine .tracked hsource hnonce hrequests (fun s => ?_) (hrejections.trans h.rejections)
    rw [← h.nonces]
    exact hnonces s
  | refused hrequests hnonces hrejections =>
    exact .refused (hrequests.trans h.requests) (hnonces.trans h.nonces)
      (hrejections.trans (congrArg (· + 1) h.rejections))

theorem Files.numbered (h : Files source x reply y) (hx : x.Numbered) : y.Numbered := by
  cases h with
  | tracked hsource hnonce hrequests hnonces _ => exact hx.track hsource hnonce hrequests hnonces
  | refused hrequests hnonces _ => exact hx.of_eq (by rw [hrequests]) hnonces

theorem files_reject (x : Exchange) (source : String) (kind : SubmissionKind) (r : Refusal) :
    Files source x (x.reject kind r).1 (x.reject kind r).2 := .refused rfl rfl rfl

/-- A fault injector lets a submission pass or rejects it, and is all that changes. -/
theorem of_passFaults (hl : x.lane? source = some l)
    (h : x.passFaults l kind envelope = (reply, y)) :
    x.Idles y ∧ (∃ faults, y.lane? source = some { l with faults := faults }) ∧
      (((l.faults.settings.judge kind x.draws).1 = false ∧ ∃ nonce, reply = .accepted nonce) ∨
        ∃ reason, reply = .rejected kind reason) := by
  obtain ⟨-, hsource⟩ := of_lane?_eq_some hl
  have hreply := fst_passFaults x l kind envelope
  rw [h] at hreply
  rw [passFaults] at h
  rcases hs : l.faults.submit kind envelope x.draws with ⟨r, faults, draws⟩
  rw [hs] at h
  cases h
  have hlane := lane?_updateLane { x with draws := draws } l.chain.id
    (f := fun l => { l with faults := faults }) (fun _ => rfl) source
  have hfound : Exchange.lane? { x with draws := draws } source = some l := hl
  rw [hfound, Option.map_some, if_pos rfl] at hlane
  refine ⟨⟨rfl, ?_, rfl⟩, ⟨faults, hlane⟩, ?_⟩
  · exact nextNonce_updateLane { x with draws := draws } l.chain.id
      (f := fun l => { l with faults := faults }) (fun _ => ⟨rfl, rfl⟩)
  · cases hjudge : (l.faults.settings.judge kind x.draws).1 with
    | false =>
      rw [hjudge] at hreply
      exact Or.inl ⟨rfl, _, hreply⟩
    | true =>
      rw [hjudge] at hreply
      exact Or.inr ⟨_, hreply⟩

theorem place_of_fresh {α : Type} {f : α → String} {a : α} {as : List α}
    (h : f a ∉ as.map f) : place f a as = as ++ [a] := by
  induction as with
  | nil => rfl
  | cons b bs ih =>
    rw [List.map_cons, List.mem_cons, not_or] at h
    rw [place, if_neg (Ne.symm h.1), ih h.2, List.cons_append]

section

variable {faults : SimulatedGateway}

theorem posts_of_fresh (hx : x.Numbered)
    (hl : x.lane? l.chain.id = some { l with faults := faults }) (e : PostEnvelope) :
    place TrackedPost.key (trackedPostOf l e) x.posts = x.posts ++ [trackedPostOf l e] := by
  refine place_of_fresh (fun hmem => hx.fresh l.chain.id ?_)
  rw [nextNonce_of_lane? hl, keys_requests]
  exact List.mem_append_left _ hmem

theorem gets_of_fresh (hx : x.Numbered)
    (hl : x.lane? l.chain.id = some { l with faults := faults }) (e : GetEnvelope) :
    place TrackedGet.key (trackedGetOf l e) x.gets = x.gets ++ [trackedGetOf l e] := by
  refine place_of_fresh (fun hmem => hx.fresh l.chain.id ?_)
  rw [nextNonce_of_lane? hl, keys_requests]
  exact List.mem_append_right _ hmem

theorem trackPost_files (hx : x.Numbered)
    (hl : x.lane? l.chain.id = some { l with faults := faults }) (e : PostEnvelope) :
    Files l.chain.id x (x.trackPost l e).1 (x.trackPost l e).2 := by
  have hnext := nextNonce_of_lane? hl
  have hrequests : (x.trackPost l e).2.requests =
      x.posts.map TrackedPost.entry ++
        (trackedPostOf l e).entry :: x.gets.map TrackedGet.entry := by
    rw [requests, posts_trackPost, posts_of_fresh hx hl, List.map_append, List.append_assoc]
    rfl
  have hreply : (x.trackPost l e).1 = .accepted (x.nextNonce l.chain.id) := by rw [hnext]; rfl
  rw [hreply]
  refine .tracked (r := .post (Outline.requestOf l.card e)) rfl (by rw [hnext]; rfl) ?_
    (nextNonce_takeNonce hl) rfl
  rw [hrequests, hnext]
  exact List.perm_middle

theorem trackGet_files (hx : x.Numbered)
    (hl : x.lane? l.chain.id = some { l with faults := faults }) (e : GetEnvelope) :
    Files l.chain.id x (x.trackGet l e).1 (x.trackGet l e).2 := by
  have hnext := nextNonce_of_lane? hl
  have hrequests : (x.trackGet l e).2.requests =
      x.requests ++ [(trackedGetOf l e).entry] := by
    rw [requests, gets_trackGet, gets_of_fresh hx hl, List.map_append, requests,
      List.append_assoc]
    rfl
  have hreply : (x.trackGet l e).1 = .accepted (x.nextNonce l.chain.id) := by rw [hnext]; rfl
  rw [hreply]
  refine .tracked (r := .get (getOf l e)) rfl (by rw [hnext]; rfl) ?_
    (nextNonce_takeNonce hl) rfl
  rw [hrequests, hnext]
  exact List.perm_append_singleton _ _

end

theorem submitPost_files (hx : x.Numbered) (hl : x.lane? source = some l) (envelope : String) :
    Files source x (x.submitPost l envelope).1 (x.submitPost l envelope).2 := by
  rw [submitPost]
  split
  · exact files_reject x source .post _
  · next e _ =>
    split
    · exact files_reject x source .post _
    · rcases hfaults : x.passFaults l .post envelope with ⟨r, y⟩
      obtain ⟨hidles, ⟨faults, hlane⟩, ⟨-, nonce, rfl⟩ | ⟨reason, rfl⟩⟩ := of_passFaults hl hfaults
      · obtain ⟨-, rfl⟩ := of_lane?_eq_some hl
        exact hidles.files (trackPost_files (hidles.numbered hx) hlane e)
      · exact hidles.files (files_reject y source .post _)

theorem submitGet_files (hx : x.Numbered) (hl : x.lane? source = some l) (envelope : String) :
    Files source x (x.submitGet l envelope).1 (x.submitGet l envelope).2 := by
  rw [submitGet]
  split
  · exact files_reject x source .get _
  · next e _ =>
    rcases hfaults : x.passFaults l .get envelope with ⟨r, y⟩
    obtain ⟨hidles, ⟨faults, hlane⟩, ⟨-, nonce, rfl⟩ | ⟨reason, rfl⟩⟩ := of_passFaults hl hfaults
    · obtain ⟨-, rfl⟩ := of_lane?_eq_some hl
      exact hidles.files (trackGet_files (hidles.numbered hx) hlane e)
    · exact hidles.files (files_reject y source .get _)

/-- A submission of a post or a get is tracked under the next nonce of its source, or is
refused and counted. -/
theorem submit_files (hx : x.Numbered) (hl : x.lane? source = some l) (hkind : kind ≠ .response)
    (envelope : String) :
    Files source x (submit source kind envelope x).1 (submit source kind envelope x).2 := by
  rw [submit, hl]
  cases kind with
  | post => exact submitPost_files hx hl envelope
  | get => exact submitGet_files hx hl envelope
  | response => exact absurd rfl hkind

theorem requests_acknowledge (x : Exchange) (key response : String) :
    (x.updatePost key (fun p => { p with acknowledgement := some response })).requests =
      x.requests := by
  have hposts : (x.posts.map (fun p =>
      if p.key = key then { p with acknowledgement := some response } else p)).map
        TrackedPost.entry = x.posts.map TrackedPost.entry :=
    map_changed_of_eq (fun _ _ _ => rfl)
  exact congrArg (· ++ _) hposts

/-- A response is never tracked, taken a nonce for or counted. -/
theorem submitResponse_idles (hl : x.lane? source = some l) (envelope : String) :
    x.Idles (x.submitResponse l envelope).2 := by
  rw [submitResponse]
  split
  · exact .refl x
  · simp only
    split
    · rcases hfaults : x.passFaults l .response envelope with ⟨r, y⟩
      obtain ⟨hidles, -, ⟨-, nonce, rfl⟩ | ⟨reason, rfl⟩⟩ := of_passFaults hl hfaults
      · refine ⟨?_, hidles.nonces, hidles.rejections⟩
        exact (requests_acknowledge y _ _).trans hidles.requests
      · exact hidles
    · exact .refl x

theorem submit_response_idles (source envelope : String) (x : Exchange) :
    x.Idles (submit source .response envelope x).2 := by
  rw [submit]
  cases hl : x.lane? source with
  | none => exact .refl x
  | some l => exact submitResponse_idles hl envelope

theorem Numbered.submit (hx : x.Numbered) (source : String) (kind : SubmissionKind)
    (envelope : String) : (submit source kind envelope x).2.Numbered := by
  by_cases hkind : kind = .response
  · subst hkind
    exact (submit_response_idles source envelope x).numbered hx
  · cases hl : x.lane? source with
    | none =>
      rw [Exchange.submit, hl]
      exact hx
    | some l => exact (submit_files hx hl hkind envelope).numbered hx

end Exchange

namespace Host

open Exchange (Numbered)

variable {h h' : Host}

theorem entries_setPostStatus (x : Exchange) (key : String) (s : RequestStatus) :
    (x.setPostStatus key s).requests.map (fun e => (e.1, e.2.1)) =
      x.requests.map (fun e => (e.1, e.2.1)) := by
  have hposts : (x.setPostStatus key s).posts.map (fun p => (p.entry.1, p.entry.2.1)) =
      x.posts.map (fun p => (p.entry.1, p.entry.2.1)) :=
    map_changed_of_eq (fun _ _ _ => rfl)
  rw [Exchange.map_requests, Exchange.map_requests, hposts]
  rfl

theorem entries_setGetStatus (x : Exchange) (key : String) (s : RequestStatus) :
    (x.setGetStatus key s).requests.map (fun e => (e.1, e.2.1)) =
      x.requests.map (fun e => (e.1, e.2.1)) := by
  have hgets : (x.setGetStatus key s).gets.map (fun g => (g.entry.1, g.entry.2.1)) =
      x.gets.map (fun g => (g.entry.1, g.entry.2.1)) :=
    map_changed_of_eq (fun _ _ _ => rfl)
  rw [Exchange.map_requests, Exchange.map_requests, hgets]
  rfl

theorem nextNonce_registered (h : Host) (m : AssetModule) :
    (h.registered m).exchange.nextNonce = h.exchange.nextNonce := by
  funext s
  have hlane : (h.registered m).exchange.lane? s =
      (h.exchange.lane? s).or
        (if m.chain.id = s then some ⟨m.chain, m.moduleId, .new false, 0⟩ else none) := by
    show (h.exchange.lanes ++ [_]).find? _ = _
    rw [List.find?_append, List.find?_singleton]
    simp only [decide_eq_true_eq]
    rfl
  rw [Exchange.nextNonce, Exchange.nextNonce, hlane]
  cases h.exchange.lane? s with
  | some l => rfl
  | none =>
    rw [Option.none_or]
    split
    · rfl
    · rfl

theorem submits_callModule (h : Host) (m : AssetModule) (now : Timestamp) (c : ModuleCall) :
    Site.Submits (Exchange.gatewayOf m.chain.id) h.exchange (h.callModule m now c).2.exchange :=
  (Site.call_frame (Exchange.gatewayOf m.chain.id) now c ⟨m, h.exchange, h.metrics⟩).2

/-- What each step of a submission keeps of an exchange is kept by every call. -/
theorem call_keeps {P : Exchange → Prop}
    (hP : ∀ {source x y}, Exchange.Step source x y → P x → P y) (hx : P h.exchange) (id : String)
    (now : Timestamp) (c : ModuleCall) : P (h.call id now c).2.exchange := by
  rw [call]
  cases h.moduleOf id with
  | error e => exact hx
  | ok m =>
    show P (h.callModule m now c).2.exchange
    rcases submits_callModule h m now c with hcall | ⟨kind, envelope, hcall⟩
    · exact hcall ▸ hx
    · exact hcall ▸ Exchange.submit_keeps hP kind envelope hx

/-- No move of a host ends that its exchange is numbered. -/
theorem numbered_kept : Kept (fun h => h.exchange.Numbered) := by
  intro h h' hx hmove
  cases hmove with
  | @call m _ now c =>
    rcases submits_callModule h m now c with hcall | ⟨kind, envelope, hcall⟩
    · exact hcall ▸ hx
    · exact hcall ▸ hx.submit m.chain.id kind envelope
  | delivering key => exact hx.of_eq rfl rfl
  | clock clock => exact hx
  | postStatus key s => exact hx.of_eq (entries_setPostStatus _ _ _) rfl
  | getStatus key s => exact hx.of_eq (entries_setGetStatus _ _ _) rfl
  | faults id f =>
    exact hx.of_eq rfl (Exchange.nextNonce_updateLane _ _ (fun _ => ⟨rfl, rfl⟩))
  | outbox _ es => exact hx.of_eq rfl rfl
  | @registered m _ => exact hx.of_eq rfl (nextNonce_registered h m)

end Host
end Interchain
