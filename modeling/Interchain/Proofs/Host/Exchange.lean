/-
What the exchange does with a submission, fault injectors and records of refusals aside.

`outline` keeps of an exchange its lanes with their nonces and its posts with their
status.  A submission leaves the outline as it is, or takes a nonce for a get, or takes
one and tracks a post (`submit_outline`).  A sound outline has one lane for a chain, one
post for a key, and only posts that were tracked under nonces taken (`Outline.Sound`), so
that no post is ever tracked in the place of another (`Outline.Sound.fresh`).
-/
import Interchain.Host.Exchange
import Interchain.Proofs.Outcome
import Interchain.Proofs.Text.Decimal
import Interchain.Table
import Mathlib.Data.List.Nodup

namespace Interchain

structure Lane.Card where
  chain : Chain
  moduleId : String
  nextNonce : Nat
deriving DecidableEq

def Lane.card (l : Lane) : Lane.Card := ⟨l.chain, l.moduleId, l.nextNonce⟩

/-! ## Entries that change -/

section

variable {α β : Type} {f : α → β} {g : α → α} {as : List α}

/-- A change of some entries is not seen through a view that it leaves as it is. -/
theorem map_changed_of_eq {p : α → Prop} [DecidablePred p]
    (h : ∀ a ∈ as, p a → f (g a) = f a) :
    (as.map (fun a => if p a then g a else a)).map f = as.map f := by
  rw [List.map_map]
  refine List.map_congr_left (fun a ha => ?_)
  show f (if p a then g a else a) = f a
  split
  · next hp => exact h a ha hp
  · rfl

/-- What is seen of the entries to change is what changes in the view. -/
theorem map_changed {q : β → Prop} [DecidablePred q] {g' : β → β}
    (h : ∀ a, q (f a) → f (g a) = g' (f a)) :
    (as.map (fun a => if q (f a) then g a else a)).map f =
      (as.map f).map (fun b => if q b then g' b else b) := by
  rw [List.map_map, List.map_map]
  refine List.map_congr_left (fun a _ => ?_)
  show f (if q (f a) then g a else a) = if q (f a) then g' (f a) else f a
  split
  · next hq => exact h a hq
  · rfl

end

/-! ## Keys -/

theorem append_separator_inj {c : Char} {a b d e : List Char} (hd : c ∉ d) (he : c ∉ e)
    (h : a ++ c :: d = b ++ c :: e) : a = b ∧ d = e := by
  rcases List.append_eq_append_iff.1 h with ⟨m, rfl, hm⟩ | ⟨m, rfl, hm⟩
  · cases m with
    | nil =>
      cases hm
      exact ⟨(List.append_nil a).symm, rfl⟩
    | cons x m =>
      cases hm
      exact absurd (List.mem_append_right m List.mem_cons_self) hd
  · cases m with
    | nil =>
      cases hm
      exact ⟨List.append_nil b, rfl⟩
    | cons x m =>
      cases hm
      exact absurd (List.mem_append_right m List.mem_cons_self) he

theorem slash_not_mem_repr (n : Nat) : '/' ∉ (Nat.repr n).toList := by
  intro h
  rw [Nat.toList_repr] at h
  have hdigit := Nat.isDigit_of_mem_toDigits (by decide) (by decide) h
  exact absurd hdigit (by decide)

theorem slash_not_mem_toString (n : Int) : '/' ∉ (toString n).toList := by
  cases n with
  | ofNat n => exact slash_not_mem_repr n
  | negSucc n =>
    rw [toList_toString_negSucc, List.mem_cons, not_or]
    exact ⟨by decide, slash_not_mem_repr _⟩

/-- No two requests have one key, whatever their sources and nonces are. -/
theorem requestKey_injective {s t : String} {m n : Int} (h : requestKey s m = requestKey t n) :
    s = t ∧ m = n := by
  have htext : ∀ (u : String) (k : Int),
      (requestKey u k).toList = u.toList ++ '/' :: (toString k).toList := by
    intro u k
    show (u ++ "/" ++ toString k).toList = _
    rw [String.toList_append, String.toList_append, List.append_assoc]
    rfl
  have hlist := congrArg String.toList h
  rw [htext, htext] at hlist
  obtain ⟨hs, hn⟩ :=
    append_separator_inj (slash_not_mem_toString m) (slash_not_mem_toString n) hlist
  exact ⟨String.toList_injective hs, toString_injective (String.toList_injective hn)⟩

theorem requestKey_inj {s t : String} {m n : Nat} (h : requestKey s m = requestKey t n) :
    s = t ∧ m = n :=
  (requestKey_injective h).imp_right Int.ofNat.inj

namespace Exchange

structure Outline where
  lanes : List Lane.Card
  posts : Table String (PostRequest × RequestStatus)
deriving DecidableEq

def outline (x : Exchange) : Outline :=
  ⟨x.lanes.map Lane.card, x.posts.map (fun p => (p.key, p.request, p.status))⟩

namespace Outline

def bump (o : Outline) (id : String) : Outline :=
  { o with
    lanes := o.lanes.map
      (fun c => if c.chain.id = id then { c with nextNonce := c.nextNonce + 1 } else c) }

def requestOf (c : Lane.Card) (e : PostEnvelope) : PostRequest :=
  ⟨c.chain.id, e.dest, c.nextNonce, c.moduleId, e.toModule, e.timeout, e.body, e.gasLimit⟩

def track (o : Outline) (c : Lane.Card) (e : PostEnvelope) : Outline :=
  { o.bump c.chain.id with
    posts := Table.put (requestKey c.chain.id c.nextNonce) (requestOf c e, .dispatched) o.posts }

def setStatus (o : Outline) (key : String) (r : PostRequest) (s : RequestStatus) : Outline :=
  { o with posts := Table.put key (r, s) o.posts }

end Outline

/-! ## Steps of the exchange -/

theorem map_card_updateLane (x : Exchange) (id : String) {f : Lane → Lane}
    (h : ∀ l, (f l).card = l.card) : (x.updateLane id f).lanes.map Lane.card =
      x.lanes.map Lane.card :=
  map_changed_of_eq (fun l _ _ => h l)

theorem outline_passFaults {x x' : Exchange} {l : Lane} {kind : SubmissionKind}
    {envelope : String} {r : Reply} (h : x.passFaults l kind envelope = (r, x')) :
    x'.outline = x.outline := by
  rw [passFaults] at h
  rcases hs : l.faults.submit kind envelope x.draws with ⟨r', faults, draws⟩
  rw [hs] at h
  cases h
  have hlanes := map_card_updateLane { x with draws := draws } l.chain.id
    (f := fun l => { l with faults := faults }) (fun _ => rfl)
  rw [outline, outline, hlanes]
  rfl

theorem outline_updatePost {x : Exchange} {key : String} {f : TrackedPost → TrackedPost}
    (h : ∀ p, (f p).key = p.key ∧ (f p).request = p.request ∧ (f p).status = p.status) :
    (x.updatePost key f).outline = x.outline := by
  have hposts : (x.posts.map (fun p => if p.key = key then f p else p)).map
      (fun p => (p.key, p.request, p.status)) =
      x.posts.map (fun p => (p.key, p.request, p.status)) := by
    refine map_changed_of_eq (fun p _ _ => ?_)
    obtain ⟨hkey, hrequest, hstatus⟩ := h p
    rw [hkey, hrequest, hstatus]
  exact congrArg (Outline.mk _) hposts

theorem map_place {α ν : Type} (key : α → String) (v : α → ν) (a : α) (as : List α) :
    (place key a as).map (fun a => (key a, v a)) =
      Table.put (key a) (v a) (as.map (fun a => (key a, v a))) := by
  induction as with
  | nil => rfl
  | cons b bs ih =>
    rw [place, List.map_cons, Table.put]
    split
    · rfl
    · rw [List.map_cons, ih]

theorem outline_takeNonce (x : Exchange) (l : Lane) :
    (x.takeNonce l).outline = x.outline.bump l.chain.id := by
  have hlanes : (x.takeNonce l).lanes.map Lane.card = (x.outline.bump l.chain.id).lanes :=
    map_changed (q := fun c : Lane.Card => c.chain.id = l.chain.id) (fun _ _ => rfl)
  exact congrArg (Outline.mk · _) hlanes

theorem outline_trackPost (x : Exchange) (l : Lane) (e : PostEnvelope) :
    (x.trackPost l e).2.outline = x.outline.track l.card e := by
  have hlanes := congrArg Outline.lanes (outline_takeNonce x l)
  have hposts := map_place TrackedPost.key (fun p => (p.request, p.status))
    ⟨requestKey l.chain.id l.nextNonce, Outline.requestOf l.card e, .dispatched, none⟩ x.posts
  exact (Outline.mk.injEq _ _ _ _).mpr ⟨hlanes, hposts⟩

theorem outline_trackGet (x : Exchange) (l : Lane) (e : GetEnvelope) :
    (x.trackGet l e).2.outline = x.outline.bump l.chain.id := outline_takeNonce x l

/-! ## Submissions -/

inductive Submitted (source : String) (envelope : String) (o : Outline) :
    SubmissionKind → Reply → Outline → Prop
  | unchanged {kind : SubmissionKind} {reply : Reply}
      (declined : kind ≠ .response → reply.isAccepted = false) :
      Submitted source envelope o kind reply o
  | post {c : Lane.Card} {e : PostEnvelope} (lane : c ∈ o.lanes) (source_eq : c.chain.id = source)
      (decode_eq : PostEnvelope.decode envelope = .ok e)
      (dest : e.dest ∈ o.lanes.map (fun c => c.chain.id)) :
      Submitted source envelope o .post (.accepted c.nextNonce) (o.track c e)
  | get {nonce : Nat} : Submitted source envelope o .get (.accepted nonce) (o.bump source)

section

variable {source envelope : String} {o o' : Outline} {kind : SubmissionKind} {reply : Reply}

theorem Submitted.eq_of_declined (h : Submitted source envelope o kind reply o')
    (hreply : reply.isAccepted = false) : o' = o := by
  cases h with
  | unchanged => rfl
  | post => cases hreply
  | get => cases hreply

theorem Submitted.of_response (h : Submitted source envelope o .response reply o') : o' = o := by
  cases h
  rfl

theorem Submitted.of_get {nonce : Int}
    (h : Submitted source envelope o .get (.accepted nonce) o') : o' = o.bump source := by
  cases h with
  | unchanged hdeclined => cases hdeclined (by decide)
  | get => rfl

theorem Submitted.of_post {nonce : Int}
    (h : Submitted source envelope o .post (.accepted nonce) o') :
    ∃ c e, c ∈ o.lanes ∧ c.chain.id = source ∧ PostEnvelope.decode envelope = .ok e ∧
      e.dest ∈ o.lanes.map (fun c => c.chain.id) ∧ o' = o.track c e := by
  cases h with
  | unchanged hdeclined => cases hdeclined (by decide)
  | post hlane hsource hdecode hdest => exact ⟨_, _, hlane, hsource, hdecode, hdest, rfl⟩

end

variable {x x' : Exchange} {source id envelope : String} {l : Lane} {reply : Reply}

theorem of_lane?_eq_some (h : x.lane? id = some l) :
    l.card ∈ x.outline.lanes ∧ l.chain.id = id := by
  refine ⟨List.mem_map_of_mem (List.mem_of_find?_eq_some h), ?_⟩
  have hid := List.find?_some h
  exact of_decide_eq_true hid

theorem of_post?_eq_some {key : String} {p : TrackedPost} (h : x.post? key = some p) :
    p ∈ x.posts ∧ p.key = key := by
  have hkey := List.find?_some h
  exact ⟨List.mem_of_find?_eq_some h, of_decide_eq_true hkey⟩

theorem of_get?_eq_some {key : String} {q : TrackedGet} (h : x.get? key = some q) :
    q ∈ x.gets ∧ q.key = key := by
  have hkey := List.find?_some h
  exact ⟨List.mem_of_find?_eq_some h, of_decide_eq_true hkey⟩

theorem submitted_declined {kind : SubmissionKind} {r : Reply} {y : Exchange} {o : Outline}
    (h : (r, y) = (reply, x')) (hy : y.outline = o) (hr : r.isAccepted = false) :
    Submitted source envelope o kind reply x'.outline := by
  obtain ⟨rfl, rfl⟩ := Prod.mk.inj h
  rw [hy]
  exact .unchanged (fun _ => hr)

theorem submitted_post (hl : x.lane? source = some l)
    (h : x.submitPost l envelope = (reply, x')) :
    Submitted source envelope x.outline .post reply x'.outline := by
  obtain ⟨hcard, hsource⟩ := of_lane?_eq_some hl
  rw [submitPost] at h
  split at h
  · exact submitted_declined h rfl rfl
  · next e hdecode =>
    cases hd : x.lane? e.dest with
    | none =>
      rw [hd] at h
      exact submitted_declined h rfl rfl
    | some d =>
      obtain ⟨hdcard, hdest⟩ := of_lane?_eq_some hd
      rw [hd] at h
      rcases hfaults : x.passFaults l .post envelope with ⟨r, y⟩
      have hy := outline_passFaults hfaults
      rw [hfaults] at h
      cases r with
      | accepted nonce =>
        have htrack : y.trackPost l e = (reply, x') := h
        have hreply : reply = .accepted l.nextNonce := (congrArg Prod.fst htrack).symm
        have hx' := outline_trackPost y l e
        rw [htrack, hy] at hx'
        rw [hx', hreply]
        refine .post hcard hsource hdecode ?_
        rw [← hdest]
        exact List.mem_map_of_mem hdcard
      | rejected k reason => exact submitted_declined h hy rfl
      | raised text => exact submitted_declined h hy rfl

theorem submitted_get (hl : x.lane? source = some l)
    (h : x.submitGet l envelope = (reply, x')) :
    Submitted source envelope x.outline .get reply x'.outline := by
  obtain ⟨-, hsource⟩ := of_lane?_eq_some hl
  rw [submitGet] at h
  split at h
  · exact submitted_declined h rfl rfl
  · next e hdecode =>
    rcases hfaults : x.passFaults l .get envelope with ⟨r, y⟩
    have hy := outline_passFaults hfaults
    rw [hfaults] at h
    cases r with
    | accepted nonce =>
      have htrack : y.trackGet l e = (reply, x') := h
      have hreply : reply = .accepted l.nextNonce := (congrArg Prod.fst htrack).symm
      have hx' := outline_trackGet y l e
      rw [htrack, hy, hsource] at hx'
      rw [hx', hreply]
      exact .get
    | rejected k reason => exact submitted_declined h hy rfl
    | raised text => exact submitted_declined h hy rfl

/-- A response changes at most an acknowledgement, of which the outline has nothing. -/
theorem outline_submitResponse (h : x.submitResponse l envelope = (reply, x')) :
    x'.outline = x.outline := by
  rw [submitResponse] at h
  split at h
  · cases h
    rfl
  · next p hdecode =>
    simp only at h
    split at h
    · rcases hfaults : x.passFaults l .response envelope with ⟨r, y⟩
      have hy := outline_passFaults hfaults
      rw [hfaults] at h
      cases r with
      | accepted nonce =>
        cases h
        refine Eq.trans (outline_updatePost ?_) hy
        exact fun _ => ⟨rfl, rfl, rfl⟩
      | rejected k reason =>
        cases h
        exact hy
      | raised text =>
        cases h
        exact hy
    · cases h
      rfl

theorem submit_outline {kind : SubmissionKind}
    (h : submit source kind envelope x = (reply, x')) :
    Submitted source envelope x.outline kind reply x'.outline := by
  rw [submit] at h
  split at h
  · cases h
    exact .unchanged (fun _ => rfl)
  · next l hl =>
    cases kind with
    | post => exact submitted_post hl h
    | get => exact submitted_get hl h
    | response =>
      rw [outline_submitResponse h]
      exact .unchanged (fun hne => absurd rfl hne)

/-! ## Sound outlines -/

namespace Outline

def ids (o : Outline) : List String := o.lanes.map (fun c => c.chain.id)

/-- A request that was tracked under a nonce which its source has taken. -/
structure Tracked (o : Outline) (key : String) (r : PostRequest) : Prop where
  source : r.source ∈ o.ids
  dest : r.dest ∈ o.ids
  payload : ∃ p, Payload.decode r.body = .ok p
  nonce : ∃ n : Nat, r.nonce = n ∧ key = requestKey r.source n ∧
    ∀ c ∈ o.lanes, c.chain.id = r.source → n < c.nextNonce

structure Sound (o : Outline) : Prop where
  nodup_ids : o.ids.Nodup
  nodup_keys : (Table.keys o.posts).Nodup
  tracked : ∀ {key : String} {r : PostRequest} {s : RequestStatus},
    Table.get? key o.posts = some (r, s) → o.Tracked key r

variable {o o' : Outline} {c : Lane.Card} {e : PostEnvelope} {key : String} {r : PostRequest}
  {s s' : RequestStatus}

theorem sound_empty : Sound ⟨[], []⟩ :=
  ⟨List.nodup_nil, List.nodup_nil, fun h => nomatch h⟩

theorem Tracked.mono (h : o.Tracked key r) (hids : ∀ id ∈ o.ids, id ∈ o'.ids)
    (hnonces : ∀ c' ∈ o'.lanes, c'.chain.id ∈ o.ids →
      ∃ c ∈ o.lanes, c.chain.id = c'.chain.id ∧ c.nextNonce ≤ c'.nextNonce) :
    o'.Tracked key r := by
  obtain ⟨n, hn, hkey, hlt⟩ := h.nonce
  refine ⟨hids _ h.source, hids _ h.dest, h.payload, n, hn, hkey, fun c' hc' hid => ?_⟩
  obtain ⟨c, hc, hcid, hle⟩ := hnonces c' hc' (hid ▸ h.source)
  have := hlt c hc (hcid.trans hid)
  omega

theorem ids_bump (o : Outline) (id : String) : (o.bump id).ids = o.ids :=
  map_changed_of_eq (fun _ _ _ => rfl)

theorem cards_bump (o : Outline) (id : String) :
    (o.bump id).lanes.map (fun c => (c.chain, c.moduleId)) =
      o.lanes.map (fun c => (c.chain, c.moduleId)) :=
  map_changed_of_eq (fun _ _ _ => rfl)

theorem exists_of_mem_bump {id : String} {c' : Lane.Card} (h : c' ∈ (o.bump id).lanes) :
    ∃ c ∈ o.lanes, c.chain.id = c'.chain.id ∧
      c'.nextNonce = if c.chain.id = id then c.nextNonce + 1 else c.nextNonce := by
  obtain ⟨c, hc, rfl⟩ := List.mem_map.1 h
  refine ⟨c, hc, ?_⟩
  split
  · exact ⟨rfl, rfl⟩
  · exact ⟨rfl, rfl⟩

theorem Tracked.bump (h : o.Tracked key r) (id : String) : (o.bump id).Tracked key r := by
  refine h.mono (fun i hi => ?_) (fun c' hc' _ => ?_)
  · rw [ids_bump]
    exact hi
  · obtain ⟨c, hc, hid, hnext⟩ := exists_of_mem_bump hc'
    refine ⟨c, hc, hid, ?_⟩
    rw [hnext]
    split
    · exact Nat.le_succ _
    · exact Nat.le_refl _

theorem Sound.bump (h : o.Sound) (id : String) : (o.bump id).Sound := by
  refine ⟨?_, h.nodup_keys, fun hget => (h.tracked hget).bump id⟩
  rw [ids_bump]
  exact h.nodup_ids

/-- The key under which a lane tracks its next post is no key yet. -/
theorem Sound.fresh (h : o.Sound) (hc : c ∈ o.lanes) :
    Table.get? (requestKey c.chain.id c.nextNonce) o.posts = none := by
  cases hget : Table.get? (requestKey c.chain.id c.nextNonce) o.posts with
  | none => rfl
  | some v =>
    obtain ⟨n, -, hkey, hlt⟩ := (h.tracked hget).nonce
    obtain ⟨hsource, hnonce⟩ := requestKey_inj hkey
    have := hlt c hc hsource
    omega

theorem eq_of_ids_eq (h : o.Sound) {c c' : Lane.Card} (hc : c ∈ o.lanes) (hc' : c' ∈ o.lanes)
    (hid : c.chain.id = c'.chain.id) : c = c' :=
  List.inj_on_of_nodup_map h.nodup_ids hc hc' hid

theorem Sound.track (h : o.Sound) (hc : c ∈ o.lanes) (hdest : e.dest ∈ o.ids)
    (hbody : ∃ p, Payload.decode e.body = .ok p) : (o.track c e).Sound := by
  have hbump := h.bump c.chain.id
  refine ⟨hbump.nodup_ids, Table.nodup_keys_put h.nodup_keys, ?_⟩
  intro key r s hget
  by_cases hkey : key = requestKey c.chain.id c.nextNonce
  · subst hkey
    have hput : some (requestOf c e, RequestStatus.dispatched) = some (r, s) :=
      (Table.get?_put_self _ _ o.posts).symm.trans hget
    cases hput
    refine ⟨?_, ?_, hbody, c.nextNonce, rfl, rfl, ?_⟩
    · show c.chain.id ∈ (o.bump c.chain.id).ids
      rw [ids_bump]
      exact List.mem_map_of_mem hc
    · show e.dest ∈ (o.bump c.chain.id).ids
      rw [ids_bump]
      exact hdest
    · intro c' hc' hid
      obtain ⟨c₀, hc₀, hid₀, hnext⟩ := exists_of_mem_bump hc'
      have heq : c₀ = c := eq_of_ids_eq h hc₀ hc (hid₀.trans hid)
      rw [hnext, heq, if_pos rfl]
      exact Nat.lt_succ_self _
  · have hget' : Table.get? key o.posts = some (r, s) :=
      (Table.get?_put_of_ne hkey _ o.posts).symm.trans hget
    obtain ⟨hsource, hdest, hpayload, hnonce⟩ := (h.tracked hget').bump c.chain.id
    exact ⟨hsource, hdest, hpayload, hnonce⟩

theorem Sound.setStatus (h : o.Sound) (hget : Table.get? key o.posts = some (r, s)) :
    (o.setStatus key r s').Sound := by
  refine ⟨h.nodup_ids, Table.nodup_keys_put h.nodup_keys, ?_⟩
  intro key' r' t hget'
  have hold : ∃ t', Table.get? key' o.posts = some (r', t') := by
    by_cases hkey : key' = key
    · subst hkey
      have hput : some (r, s') = some (r', t) :=
        (Table.get?_put_self _ _ o.posts).symm.trans hget'
      cases hput
      exact ⟨s, hget⟩
    · exact ⟨t, (Table.get?_put_of_ne hkey _ o.posts).symm.trans hget'⟩
  obtain ⟨t', hold⟩ := hold
  obtain ⟨hsource, hdest, hpayload, hnonce⟩ := h.tracked hold
  exact ⟨hsource, hdest, hpayload, hnonce⟩

theorem Sound.addLane (h : o.Sound) {chain : Chain} (hid : chain.id ∉ o.ids)
    (moduleId : String) : Sound { o with lanes := o.lanes ++ [⟨chain, moduleId, 0⟩] } := by
  have hids : ids { o with lanes := o.lanes ++ [⟨chain, moduleId, 0⟩] } = o.ids ++ [chain.id] :=
    List.map_append
  refine ⟨?_, h.nodup_keys, fun hget => (h.tracked hget).mono ?_ ?_⟩
  · rw [hids, List.nodup_append]
    refine ⟨h.nodup_ids, List.nodup_cons.2 ⟨List.not_mem_nil, List.nodup_nil⟩, ?_⟩
    intro a ha b hb hab
    rw [List.mem_singleton] at hb
    exact hid (hb ▸ hab ▸ ha)
  · intro id hmem
    rw [hids]
    exact List.mem_append_left _ hmem
  · intro c' hc' hmem
    rcases List.mem_append.1 hc' with hc' | hc'
    · exact ⟨c', hc', rfl, Nat.le_refl _⟩
    · rw [List.mem_singleton] at hc'
      rw [hc'] at hmem
      exact absurd hmem hid

end Outline
end Exchange
end Interchain
