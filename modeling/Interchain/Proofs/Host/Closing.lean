/-
How the requests of a host end.

A post ends with a mint and a status that follow each other in one operation of the host,
whatever fails after them: `closed` is the host between the two and `close_post` what its
books are.  The posts that a round of timeouts still has before it are untouched by those
it has dealt with, which is the invariant of `expirePosts_evolves`.
-/
import Interchain.Proofs.Host.Call

namespace Interchain

open Relation (ReflTransGen)

/-! ## Status -/

namespace Exchange

variable {x : Exchange} {key : String} {r : PostRequest} {s : RequestStatus}

theorem outline_setPostStatus (hx : x.outline.Sound)
    (hget : Table.get? key x.outline.posts = some (r, s)) (s' : RequestStatus) :
    (x.setPostStatus key s').outline = x.outline.setStatus key r s' := by
  have hupdate := Table.map_update (fun v => (v.1, s')) hx.nodup_keys hget
  have hposts : (x.posts.map (fun p => if p.key = key then { p with status := s' } else p)).map
      (fun p => (p.key, p.request, p.status)) =
      x.outline.posts.map (fun e => if e.1 = key then (e.1, e.2.1, s') else e) :=
    map_changed (q := fun e : String × PostRequest × RequestStatus => e.1 = key) (fun _ _ => rfl)
  exact congrArg (Outline.mk _) (hposts.trans hupdate)

theorem get?_of_post? (hx : x.outline.Sound) {p : TrackedPost} (hp : x.post? key = some p) :
    Table.get? key x.outline.posts = some (p.request, p.status) := by
  obtain ⟨hmem, hkey⟩ := of_post?_eq_some hp
  refine Table.get?_of_mem hx.nodup_keys ?_
  rw [← hkey]
  exact List.mem_map_of_mem hmem

end Exchange

namespace Host

variable {h h' h₁ : Host} {m : AssetModule} {now : Timestamp} {key : String} {r : PostRequest}
  {s : RequestStatus} {l : Ledger}

def closed (h : Host) (key : String) (s : RequestStatus) : Host :=
  { h with exchange := h.exchange.setPostStatus key s }

theorem close_post (hs : h.Sound) (hm : m ∈ h.modules)
    (hget : Table.get? key h.exchange.outline.posts = some (r, s)) (hl : l.Sound) {x : Exchange}
    (hx : x.outline = h.exchange.outline) (hal : (h.settle m l x).Alike h₁)
    (s' : RequestStatus) :
    (h₁.closed key s').Sound ∧ (h₁.closed key s').exchange.outline =
        h.exchange.outline.setStatus key r s' ∧
      (h₁.closed key s').books =
        h.books.enter m.chain.id l key { transitOf (r, s) with status := s' } := by
  have houtline : h₁.exchange.outline = h.exchange.outline := hal.outline.trans hx
  have hclosed : (h₁.closed key s').exchange.outline =
      h.exchange.outline.setStatus key r s' := by
    have hset : (h₁.exchange.setPostStatus key s').outline =
        h₁.exchange.outline.setStatus key r s' :=
      Exchange.outline_setPostStatus (by rw [houtline]; exact hs.exchange)
        (by rw [houtline]; exact hget) s'
    rw [houtline] at hset
    exact hset
  have hal' : (h.settle m l (h₁.closed key s').exchange).Alike (h₁.closed key s') :=
    ⟨hal.modules, rfl⟩
  have hsound := hs.settle (x := (h₁.closed key s').exchange) hm hl
    (by rw [hclosed]; exact hs.exchange.setStatus hget) (by rw [hclosed]; rfl)
  refine ⟨hsound.alike hal', hclosed, ?_⟩
  rw [hal'.books_eq, books_settle_put hs hm l (congrArg (·.posts) hclosed)]
  rfl

/-- A post is accepted by its destination and marked as answered: its amount is minted there. -/
theorem books_accept_post (hs : h.Sound) {caller : String}
    (hget : Table.get? key h.exchange.outline.posts = some (r, .dispatched))
    (hcall : h.call r.dest now (.onAccept caller r) = (.ok (), h₁)) :
    (h₁.closed key .responded).Sound ∧ ∃ p l, Payload.decode r.body = .ok p ∧
      Table.get? r.dest h.books.ledgers = some l ∧
      l.creditAccount p.recipient p.amount = .ok (l.raise p.recipient p.amount) ∧
      (h₁.closed key .responded).books = h.books.enter r.dest
        (l.apply (l.raise p.recipient p.amount)) key
        { transitOf (r, .dispatched) with status := .responded } := by
  obtain ⟨m, hm, l, body, x, hcommit, hal⟩ := call_ok hcall
  have hmem := (moduleOf_eq_ok hm).1
  have hid := hs.id_of_moduleOf (hs.exchange.tracked hget).dest hm
  cases hcommit with
  | @onAccept _ _ p move _ hdecode hmove _ =>
    have hl := (hs.ledgers m hmem).raise hmove
    have hx := outline_acknowledged m.chain.id m r h.exchange
    obtain ⟨hsound, -, hbooks⟩ := close_post hs hmem hget hl hx hal .responded
    have hledger := hs.get?_ledgers hmem
    obtain ⟨rfl, -, -⟩ := Ledger.creditAccount_eq_ok.1 hmove
    rw [hid] at hledger hbooks
    exact ⟨hsound, p, m.ledger, hdecode, hledger, hmove, hbooks⟩

theorem accept_post (hs : h.Sound) {caller : String}
    (hget : Table.get? key h.exchange.outline.posts = some (r, .dispatched))
    (hcall : h.call r.dest now (.onAccept caller r) = (.ok (), h₁)) :
    (h₁.closed key .responded).Sound ∧
      Books.Internal h.books (h₁.closed key .responded).books := by
  obtain ⟨hsound, p, l, hdecode, hledger, hmove, hbooks⟩ := books_accept_post hs hget hcall
  rw [hbooks]
  exact ⟨hsound, .answered (get?_transits hget) (payload_transitOf hdecode) rfl hledger hmove⟩

/-- A post is refunded by its source and marked as timed out. -/
theorem timeout_post (hs : h.Sound) {caller : String}
    (hget : Table.get? key h.exchange.outline.posts = some (r, .dispatched))
    (hcall : h.call r.source now (.onPostTimeout caller r) = (.ok (), h₁)) :
    (h₁.closed key .timedOut).Sound ∧
      (h₁.closed key .timedOut).exchange.outline =
        h.exchange.outline.setStatus key r .timedOut ∧
      Books.Internal h.books (h₁.closed key .timedOut).books := by
  obtain ⟨m, hm, l, body, x, hcommit, hal⟩ := call_ok hcall
  have hmem := (moduleOf_eq_ok hm).1
  have hid := hs.id_of_moduleOf (hs.exchange.tracked hget).source hm
  cases hcommit with
  | @onPostTimeout _ _ p move _ hdecode hmove =>
    have hl := (hs.ledgers m hmem).raise hmove
    obtain ⟨hsound, houtline, hbooks⟩ := close_post hs hmem hget hl rfl hal .timedOut
    refine ⟨hsound, houtline, ?_⟩
    have hledger := hs.get?_ledgers hmem
    rw [hid] at hledger
    rw [hbooks, hid]
    exact .timedOut (get?_transits hget) (payload_transitOf hdecode) rfl hledger hmove

/-! ## Delivery -/

theorem handBack_alike (hs : h.Sound) {r : Except Failure Unit}
    (hback : h.handBack now key = (r, h')) : h.Alike h' := by
  rw [handBack] at hback
  split at hback
  · exact call_answer hs (Or.inl ⟨_, rfl⟩) hback
  · cases hback
    exact Alike.refl h
  · cases hback
    exact Alike.refl h

theorem trackedPost_eq_ok {p : TrackedPost} (hp : h.trackedPost key = .ok p) :
    h.exchange.post? key = some p := by
  rw [trackedPost] at hp
  split at hp
  · next q hq =>
    cases hp
    exact hq
  · cases hp

theorem dispatched_of_answerable {timeout : Int}
    (ha : h.ensureAnswerable s timeout key = .ok ()) : s = .dispatched := by
  obtain ⟨_, htransition, -⟩ := bind_eq_ok.1 ha
  cases s with
  | dispatched => rfl
  | idle => cases htransition
  | dispatchRejected => cases htransition
  | responded => cases htransition
  | timedOut => cases htransition

/-- What becomes of a delivery.  A post that cannot be answered is not delivered, and one that
its destination refuses stays as it is.  One that it accepts is answered, and its acknowledgement
is handed back. -/
inductive Delivery (now : Timestamp) (key : String) (h : Host) : Except Failure Unit → Host → Prop
  | declined (f : Failure) : Delivery now key h (.error f) h
  | refused {p : TrackedPost} {f : Failure} {h₁ : Host}
      (post : h.exchange.post? key = some p) (status : p.status = .dispatched)
      (refusal : (h.setDelivering (some key)).call p.request.dest now
        (.onAccept h.address p.request) = (.error f, h₁)) :
      Delivery now key h (.error f) (h₁.setDelivering none)
  | accepted {p : TrackedPost} {h₁ h' : Host} {r : Except Failure Unit}
      (post : h.exchange.post? key = some p) (status : p.status = .dispatched)
      (acceptance : (h.setDelivering (some key)).call p.request.dest now
        (.onAccept h.address p.request) = (.ok (), h₁))
      (back : ((h₁.setDelivering none).closed key .responded).handBack now key = (r, h')) :
      Delivery now key h r h'

theorem delivery_of_deliver {r : Except Failure Unit} (hdeliver : h.deliver now key = (r, h')) :
    Delivery now key h r h' := by
  rw [deliver] at hdeliver
  split at hdeliver
  · cases hdeliver
    exact .declined _
  · next p hp =>
    split at hdeliver
    · cases hdeliver
      exact .declined _
    · next hanswerable =>
      have hpost := trackedPost_eq_ok hp
      have hdispatched := dispatched_of_answerable hanswerable
      simp only at hdeliver
      split at hdeliver
      · next f h₁ hcall =>
        cases hdeliver
        exact .refused hpost hdispatched hcall
      · next h₁ hcall => exact .accepted hpost hdispatched hcall hdeliver

theorem get?_of_dispatched (hs : h.Sound) {p : TrackedPost} (hpost : h.exchange.post? key = some p)
    (hstatus : p.status = .dispatched) :
    Table.get? key h.exchange.outline.posts = some (p.request, .dispatched) := by
  have hget := Exchange.get?_of_post? hs.exchange hpost
  rwa [hstatus] at hget

theorem deliver_evolves (hs : h.Sound) {r : Except Failure Unit}
    (hdeliver : h.deliver now key = (r, h')) : h'.Sound ∧ h.books.Evolves none h'.books := by
  have hdelivering : h.Alike (h.setDelivering (some key)) := (Alike.refl h).setDelivering _
  have hs' := hs.alike hdelivering
  cases delivery_of_deliver hdeliver with
  | declined f => exact ⟨hs, .refl⟩
  | refused _ _ hcall =>
    have hal := hdelivering.trans ((call_error hs' hcall).setDelivering none)
    exact ⟨hs.alike hal, Books.evolves_of_eq hal.books_eq⟩
  | @accepted p h₁ _ _ hpost hstatus hcall hback =>
    obtain ⟨hsound, hmove⟩ := accept_post hs' (get?_of_dispatched hs hpost hstatus) hcall
    have hended := (Alike.refl (h₁.closed key .responded)).setDelivering none
    have hal := hended.trans (handBack_alike (hsound.alike hended) hback)
    refine ⟨hsound.alike hal, ?_⟩
    rw [hal.books_eq]
    exact .single hmove

/-! ## Answers to gets -/

theorem respondToGet_alike (hs : h.Sound) {values : List StorageValue} {r : Except Failure Unit}
    (hrespond : h.respondToGet now key values = (r, h')) : h.Alike h' := by
  rw [respondToGet] at hrespond
  split at hrespond
  · cases hrespond
    exact Alike.refl h
  · next g hg =>
    split at hrespond
    · cases hrespond
      exact Alike.refl h
    · rcases hcall : h.call g.request.source now (.onGetResponse h.address ⟨g.request, values⟩)
        with ⟨r', h₁⟩
      have hal := call_answer hs (Or.inr (Or.inl ⟨_, rfl⟩)) hcall
      rw [hcall] at hrespond
      cases r' with
      | error f =>
        cases hrespond
        exact hal
      | ok u =>
        cases hrespond
        exact ⟨hal.modules, hal.outline⟩

/-! ## Expiry -/

def Pending (h : Host) (ps : List TrackedPost) : Prop :=
  (ps.map TrackedPost.key).Nodup ∧
    ∀ p ∈ ps, Table.get? p.key h.exchange.outline.posts = some (p.request, p.status)

theorem pending_posts (hs : h.Sound) : h.Pending h.exchange.posts := by
  have hkeys : Table.keys h.exchange.outline.posts = h.exchange.posts.map TrackedPost.key := by
    rw [Table.keys, Exchange.outline, List.map_map]
    rfl
  refine ⟨hkeys ▸ hs.exchange.nodup_keys, fun p hp => ?_⟩
  exact Table.get?_of_mem hs.exchange.nodup_keys (List.mem_map_of_mem hp)

theorem Pending.tail {p : TrackedPost} {ps : List TrackedPost} (hp : h.Pending (p :: ps)) :
    h.Pending ps :=
  ⟨(List.nodup_cons.1 hp.1).2, fun q hq => hp.2 q (List.mem_cons_of_mem _ hq)⟩

theorem Pending.setStatus {p : TrackedPost} {ps : List TrackedPost} (hp : h.Pending (p :: ps))
    (hclosed : h'.exchange.outline = h.exchange.outline.setStatus p.key r s) : h'.Pending ps := by
  refine ⟨hp.tail.1, fun q hq => ?_⟩
  have hne : q.key ≠ p.key := by
    intro e
    have hfresh := (List.nodup_cons.1 hp.1).1
    rw [← e] at hfresh
    exact hfresh (List.mem_map_of_mem hq)
  rw [hclosed]
  exact (Table.get?_put_of_ne hne _ _).trans (hp.tail.2 q hq)

/-- Every post that a round times out is refunded, and what fails changes nothing more. -/
theorem expirePosts_evolves {ps : List TrackedPost} {r : Except Failure (List String)}
    (hs : h.Sound) (hp : h.Pending ps) (hexpire : expirePosts now ps h = (r, h')) :
    h'.Sound ∧ h.books.Evolves none h'.books := by
  induction ps generalizing h r with
  | nil =>
    cases hexpire
    exact ⟨hs, .refl⟩
  | cons p ps ih =>
    rw [expirePosts] at hexpire
    split at hexpire
    · next hdue =>
      have hget := hp.2 p List.mem_cons_self
      rw [hdue.1] at hget
      rcases hcall : h.call p.request.source now (.onPostTimeout h.address p.request)
        with ⟨r', h₁⟩
      rw [hcall] at hexpire
      cases r' with
      -- the round ends here, and a call that fails leaves the books as they are
      | error f =>
        have hal := call_error hs hcall
        cases hexpire
        exact ⟨hs.alike hal, Books.evolves_of_eq hal.books_eq⟩
      | ok u =>
        obtain ⟨hsound, hclosed, hmove⟩ := timeout_post hs hget hcall
        have hpending := hp.setStatus hclosed
        rcases hrest : expirePosts now ps (h₁.closed p.key .timedOut) with ⟨r'', h₂⟩
        have hh' : h' = h₂ := by
          have hsnd := congrArg Prod.snd hexpire
          exact hsnd.symm.trans (congrArg Prod.snd hrest)
        subst hh'
        obtain ⟨hsound₂, hevolves⟩ := ih hsound hpending hrest
        exact ⟨hsound₂, .head hmove hevolves⟩
    · exact ih hs hp.tail hexpire

theorem expireGets_alike {gs : List TrackedGet} {r : Except Failure (List String)}
    (hs : h.Sound) (hexpire : expireGets now gs h = (r, h')) : h.Alike h' := by
  induction gs generalizing h r with
  | nil =>
    cases hexpire
    exact Alike.refl _
  | cons g gs ih =>
    rw [expireGets] at hexpire
    split at hexpire
    · rcases hcall : h.call g.request.source now (.onGetTimeout h.address g.request) with ⟨r', h₁⟩
      have hal := call_answer hs (Or.inr (Or.inr ⟨_, rfl⟩)) hcall
      rw [hcall] at hexpire
      cases r' with
      | error f =>
        cases hexpire
        exact hal
      | ok u =>
        have hset : h.Alike { h₁ with exchange := h₁.exchange.setGetStatus g.key .timedOut } :=
          ⟨hal.modules, hal.outline⟩
        rcases hrest : expireGets now gs
          { h₁ with exchange := h₁.exchange.setGetStatus g.key .timedOut } with ⟨r'', h₂⟩
        have hh' : h' = h₂ := by
          have hsnd := congrArg Prod.snd hexpire
          exact hsnd.symm.trans (congrArg Prod.snd hrest)
        subst hh'
        exact hset.trans (ih (hs.alike hset) hrest)
    · exact ih hs hexpire

theorem expire_evolves {clock : Int} {r : Except Failure (List String)} (hs : h.Sound)
    (hexpire : h.expire now clock = (r, h')) : h'.Sound ∧ h.books.Evolves none h'.books := by
  rw [expire] at hexpire
  split at hexpire
  · cases hexpire
    exact ⟨hs, .refl⟩
  · have hclock : h.Alike { h with clock := clock } := ⟨rfl, rfl⟩
    have hs' : Sound { h with clock := clock } := hs.alike hclock
    rcases hposts : expirePosts now h.exchange.posts { h with clock := clock } with ⟨r', h₁⟩
    obtain ⟨hsound, hevolves⟩ := expirePosts_evolves hs' (pending_posts hs') hposts
    simp only [hposts] at hexpire
    cases r' with
    | error f =>
      cases hexpire
      exact ⟨hsound, hevolves⟩
    | ok posts =>
      rcases hgets : expireGets now h₁.exchange.gets h₁ with ⟨r'', h₂⟩
      have hal := expireGets_alike hsound hgets
      have hh' : h' = h₂ := by
        simp only [hgets] at hexpire
        cases r'' with
        | error f =>
          cases hexpire
          rfl
        | ok gets =>
          cases hexpire
          rfl
      subst hh'
      refine ⟨hsound.alike hal, ?_⟩
      rw [hal.books_eq]
      exact hevolves

end Host
end Interchain
