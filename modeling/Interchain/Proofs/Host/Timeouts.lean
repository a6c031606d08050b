/-
Timeouts of gets.

The source of a get takes its timeout if and only if none of its keys is an empty byte
string (`onGetTimeout_ok_iff`).  A round of timeouts ends at the first callback that fails,
so `get_timeout` says of every get with a deadline what becomes of it once the deadline has
passed: if a round ends well, the get has timed out and none of its keys was empty; if a
round fails, it failed on a post or on a get with an empty key.

Nothing keeps a get with an empty key from being dispatched.  From its deadline on no round
ends well any more (`emptyKey_blocks_rounds`).
-/
import Interchain.Proofs.Host.Progress

namespace Interchain

def GetRequest.hasEmptyKey (r : GetRequest) : Bool := r.keys.any Site.isEmptyBytes

def TrackedPost.IsDue (p : TrackedPost) (clock : Int) : Prop :=
  p.status = .dispatched ∧ hasExpired p.request.timeout clock = true

def TrackedGet.IsDue (g : TrackedGet) (clock : Int) : Prop :=
  g.status = .dispatched ∧ hasExpired g.request.timeout clock = true

theorem Site.ensureKeys_eq_ok {r : GetRequest} :
    ensureKeys r.keys = .ok () ↔ r.hasEmptyKey = false := by
  rw [ensureKeys, GetRequest.hasEmptyKey, List.any_eq_false]
  cases hfind : r.keys.findIdx? isEmptyBytes with
  | none => exact iff_of_true rfl (by simpa using List.findIdx?_eq_none_iff.1 hfind)
  | some i =>
    refine iff_of_false (fun h => nomatch h) (fun h => ?_)
    have hnone : r.keys.findIdx? isEmptyBytes = none :=
      List.findIdx?_eq_none_iff.2 (fun k hk => Bool.eq_false_iff.2 (h k hk))
    rw [hnone] at hfind
    cases hfind

namespace Host

variable {h h' : Host} {now : Timestamp} {id key : String}

/-! ## One timeout -/

theorem clock_call (h : Host) (id : String) (now : Timestamp) (c : ModuleCall) :
    (h.call id now c).2.clock = h.clock := by
  rw [call]
  cases h.moduleOf id with
  | error e => rfl
  | ok m => rfl

theorem commit_of_call {c : ModuleCall} (hcall : h.call id now c = (.ok (), h')) :
    ∃ m l body x, Site.Commit (Exchange.gatewayOf m.chain.id) m h.exchange c l body x ∧
      h'.exchange = x := by
  obtain ⟨m, -, l, body, hcommit, -⟩ := call_commits hcall
  exact ⟨m, l, body, _, hcommit, rfl⟩

theorem exchange_of_timeout {caller : String} {c : ModuleCall}
    (hc : (∃ r, c = .onPostTimeout caller r) ∨ ∃ r, c = .onGetTimeout caller r)
    (hcall : h.call id now c = (.ok (), h')) : h'.exchange = h.exchange := by
  obtain ⟨m, l, body, x, hcommit, hx⟩ := commit_of_call hcall
  rcases hc with ⟨r, rfl⟩ | ⟨r, rfl⟩
  · cases hcommit
    exact hx
  · cases hcommit
    exact hx

/-- The source of a get takes its timeout unless one of its keys is empty. -/
theorem onGetTimeout_ok_iff (hs : h.Sound) (hv : h.Served) {r : GetRequest}
    (hsource : r.source ∈ h.exchange.outline.ids) (now : Timestamp) :
    (∃ h', h.call r.source now (.onGetTimeout h.address r) = (.ok (), h')) ↔
      r.hasEmptyKey = false := by
  constructor
  · rintro ⟨h', hcall⟩
    obtain ⟨m, l, body, x, hcommit, -⟩ := commit_of_call hcall
    cases hcommit with
    | onGetTimeout _ hkeys => exact Site.ensureKeys_eq_ok.1 hkeys
  · intro hkeys
    obtain ⟨m, -, -, hmodule, hhost⟩ := hv.exists_module hs hsource
    obtain ⟨h', hcall, -⟩ := call_of_commit now hmodule
      (.onGetTimeout hhost (Site.ensureKeys_eq_ok.2 hkeys))
    exact ⟨h', hcall⟩

/-! ## Rounds -/

theorem expirePosts_due {p : TrackedPost} {ps : List TrackedPost} (hdue : p.IsDue h.clock) :
    expirePosts now (p :: ps) h =
      match h.call p.request.source now (.onPostTimeout h.address p.request) with
      | (.error f, h₁) => (.error f, h₁)
      | (.ok (), h₁) =>
        ((expirePosts now ps (h₁.closed p.key .timedOut)).1.map (p.key :: ·),
          (expirePosts now ps (h₁.closed p.key .timedOut)).2) :=
  if_pos hdue

theorem expireGets_due {g : TrackedGet} {gs : List TrackedGet} (hdue : g.IsDue h.clock) :
    expireGets now (g :: gs) h =
      match h.call g.request.source now (.onGetTimeout h.address g.request) with
      | (.error f, h₁) => (.error f, h₁)
      | (.ok (), h₁) =>
        ((expireGets now gs (h₁.closedGet g.key .timedOut)).1.map (g.key :: ·),
          (expireGets now gs (h₁.closedGet g.key .timedOut)).2) :=
  if_pos hdue

/-- A round of posts that ends well leaves the gets and the clock as they are. -/
theorem expirePosts_ok {ps : List TrackedPost} {keys : List String}
    (hround : expirePosts now ps h = (.ok keys, h')) :
    h'.exchange.gets = h.exchange.gets ∧ h'.clock = h.clock := by
  induction ps generalizing h keys with
  | nil =>
    cases hround
    exact ⟨rfl, rfl⟩
  | cons p ps ih =>
    by_cases hdue : p.IsDue h.clock
    · rw [expirePosts_due hdue] at hround
      have hclock := clock_call h p.request.source now (.onPostTimeout h.address p.request)
      rcases hcall : h.call p.request.source now (.onPostTimeout h.address p.request)
        with ⟨_ | _, h₁⟩
      · rw [hcall] at hround
        cases hround
      · rw [hcall] at hround hclock
        obtain ⟨hkeys, hrest⟩ := Prod.mk.inj hround
        obtain ⟨rest, hok, -⟩ := map_eq_ok.1 hkeys
        obtain ⟨hgets, hclock₂⟩ := ih (Prod.ext hok hrest)
        have hexchange := exchange_of_timeout (Or.inl ⟨_, rfl⟩) hcall
        have hgets₁ : h₁.exchange.gets = h.exchange.gets := by rw [hexchange]
        exact ⟨hgets.trans hgets₁, hclock₂.trans hclock⟩
    · have hskip : expirePosts now (p :: ps) h = expirePosts now ps h := if_neg hdue
      exact ih (hskip ▸ hround)

def endedIn (keys : List String) (g : TrackedGet) : TrackedGet :=
  if g.key ∈ keys then { g with status := .timedOut } else g

theorem endedIn_cons (key : String) (keys : List String) (g : TrackedGet) :
    endedIn keys (if g.key = key then { g with status := .timedOut } else g) =
      endedIn (key :: keys) g := by
  unfold endedIn
  by_cases hkey : g.key = key
  · simp only [hkey, if_true, List.mem_cons_self, ite_self]
  · simp only [hkey, if_false, List.mem_cons, false_or]

/-- A round of gets that ends well has timed out all that were due, of which none had an
empty key. -/
theorem expireGets_ok {gs : List TrackedGet} {keys : List String}
    (hround : expireGets now gs h = (.ok keys, h')) :
    (∀ g ∈ gs, g.IsDue h.clock → g.request.hasEmptyKey = false ∧ g.key ∈ keys) ∧
      h'.exchange.gets = h.exchange.gets.map (endedIn keys) := by
  induction gs generalizing h keys with
  | nil =>
    cases hround
    refine ⟨fun g hg => absurd hg List.not_mem_nil, ?_⟩
    exact (List.map_id _).symm
  | cons g gs ih =>
    by_cases hdue : g.IsDue h.clock
    · rw [expireGets_due hdue] at hround
      -- each get is judged by the clock that the round began with, since no call moves it
      have hclock := clock_call h g.request.source now (.onGetTimeout h.address g.request)
      rcases hcall : h.call g.request.source now (.onGetTimeout h.address g.request)
        with ⟨_ | _, h₁⟩
      · rw [hcall] at hround
        cases hround
      · rw [hcall] at hround hclock
        obtain ⟨hkeys, hrest⟩ := Prod.mk.inj hround
        obtain ⟨rest, hok, rfl⟩ := map_eq_ok.1 hkeys
        obtain ⟨hdues, hgets⟩ := ih (Prod.ext hok hrest)
        have hexchange := exchange_of_timeout (Or.inr ⟨_, rfl⟩) hcall
        refine ⟨fun g' hg' hdue' => ?_, ?_⟩
        · rcases List.mem_cons.1 hg' with rfl | hg'
          · obtain ⟨m, l, body, x, hcommit, -⟩ := commit_of_call hcall
            cases hcommit with
            | onGetTimeout _ hensured =>
              exact ⟨Site.ensureKeys_eq_ok.1 hensured, List.mem_cons_self⟩
          · obtain ⟨hempty, hmem⟩ := hdues g' hg' (hclock.symm ▸ hdue')
            exact ⟨hempty, List.mem_cons_of_mem _ hmem⟩
        · have hclosed : (h₁.closedGet g.key .timedOut).exchange.gets = h.exchange.gets.map
              (fun g' => if g'.key = g.key then { g' with status := .timedOut } else g') := by
            rw [← hexchange]
            rfl
          rw [hgets, hclosed, List.map_map]
          exact List.map_congr_left (fun g' _ => endedIn_cons g.key rest g')
    · have hskip : expireGets now (g :: gs) h = expireGets now gs h := if_neg hdue
      obtain ⟨hdues, hgets⟩ := ih (hskip ▸ hround)
      refine ⟨fun g' hg' hdue' => ?_, hgets⟩
      rcases List.mem_cons.1 hg' with rfl | hg'
      · exact absurd hdue' hdue
      · exact hdues g' hg' hdue'

/-- A round of gets fails only at a get that is due and has an empty key. -/
theorem expireGets_error {gs : List TrackedGet} {f : Failure} (hs : h.Sound) (hv : h.Served)
    (hsources : ∀ g ∈ gs, g.request.source ∈ h.exchange.outline.ids)
    (hround : expireGets now gs h = (.error f, h')) :
    ∃ g ∈ gs, g.IsDue h.clock ∧ g.request.hasEmptyKey = true := by
  induction gs generalizing h with
  | nil => cases hround
  | cons g gs ih =>
    have hrest : ∀ g' ∈ gs, g'.request.source ∈ h.exchange.outline.ids :=
      fun g' hg' => hsources g' (List.mem_cons_of_mem _ hg')
    by_cases hdue : g.IsDue h.clock
    · rw [expireGets_due hdue] at hround
      have hclock := clock_call h g.request.source now (.onGetTimeout h.address g.request)
      have hiff := onGetTimeout_ok_iff hs hv (hsources g List.mem_cons_self) now
      rcases hcall : h.call g.request.source now (.onGetTimeout h.address g.request)
        with ⟨_ | _, h₁⟩
      · refine ⟨g, List.mem_cons_self, hdue, ?_⟩
        cases hempty : g.request.hasEmptyKey with
        | true => rfl
        | false =>
          obtain ⟨h₂, hok⟩ := hiff.2 hempty
          rw [hcall] at hok
          cases hok
      · rw [hcall] at hround hclock
        have hal : h.Alike (h₁.closedGet g.key .timedOut) := by
          have hcalled := call_answer hs (Or.inr (Or.inr ⟨_, rfl⟩)) hcall
          exact ⟨hcalled.modules, hcalled.outline⟩
        have hv₁ : (h₁.closedGet g.key .timedOut).Served :=
          served_kept.moves hv ((moves_of_call hcall).tail (.getStatus g.key .timedOut))
        obtain ⟨hfailed, hlast⟩ := Prod.mk.inj hround
        have hround₁ : expireGets now gs (h₁.closedGet g.key .timedOut) = (.error f, h') :=
          Prod.ext (map_eq_error.1 hfailed) hlast
        obtain ⟨g', hg', hdue', hempty⟩ :=
          ih (hs.alike hal) hv₁ (fun g' hg' => hal.outline ▸ hrest g' hg') hround₁
        exact ⟨g', List.mem_cons_of_mem _ hg', hclock ▸ hdue', hempty⟩
    · have hskip : expireGets now (g :: gs) h = expireGets now gs h := if_neg hdue
      obtain ⟨g', hg', hdue', hempty⟩ := ih hs hv hrest (hskip ▸ hround)
      exact ⟨g', List.mem_cons_of_mem _ hg', hdue', hempty⟩

/-! ## Expiry -/

theorem expire_ok {clock : Int} {keys : List String}
    (hexpire : h.expire now clock = (.ok keys, h')) :
    ∃ ps h₁ gs, expirePosts now h.exchange.posts { h with clock := clock } = (.ok ps, h₁) ∧
      expireGets now h₁.exchange.gets h₁ = (.ok gs, h') ∧ keys = ps ++ gs := by
  rw [expire] at hexpire
  split at hexpire
  · cases hexpire
  · simp only at hexpire
    split at hexpire
    · cases hexpire
    · next ps h₁ hposts =>
      split at hexpire
      · cases hexpire
      · next gs h₂ hgets =>
        cases hexpire
        exact ⟨ps, h₁, gs, hposts, hgets, rfl⟩

theorem expire_error {clock : Int} {f : Failure} (hclock : h.clock ≤ clock)
    (hexpire : h.expire now clock = (.error f, h')) :
    expirePosts now h.exchange.posts { h with clock := clock } = (.error f, h') ∨
      ∃ ps h₁, expirePosts now h.exchange.posts { h with clock := clock } = (.ok ps, h₁) ∧
        expireGets now h₁.exchange.gets h₁ = (.error f, h') := by
  rw [expire, if_neg (Int.not_lt.2 hclock)] at hexpire
  simp only at hexpire
  split at hexpire
  · next hposts =>
    cases hexpire
    exact Or.inl hposts
  · next ps h₁ hposts =>
    split at hexpire
    · next hgets =>
      cases hexpire
      exact Or.inr ⟨ps, h₁, hposts, hgets⟩
    · cases hexpire

theorem get?_map_endedIn {gs : List TrackedGet} {keys : List String} {g : TrackedGet}
    (hget : gs.find? (fun g => g.key = key) = some g) :
    (gs.map (endedIn keys)).find? (fun g => g.key = key) = some (endedIn keys g) := by
  have hkey : (fun g : TrackedGet => decide (g.key = key)) ∘ endedIn keys =
      fun g => decide (g.key = key) := by
    funext g'
    simp only [Function.comp, endedIn]
    split
    · rfl
    · rfl
  rw [List.find?_map, hkey, hget]
  rfl

/-- When the deadline of a get has passed, no round ends well that has not timed it out. -/
theorem get_of_expire_ok {clock : Int} {keys : List String} {g : TrackedGet}
    (hget : h.exchange.get? key = some g) (hdue : g.IsDue clock)
    (hexpire : h.expire now clock = (.ok keys, h')) :
    g.request.hasEmptyKey = false ∧ key ∈ keys ∧
      h'.exchange.get? key = some { g with status := .timedOut } := by
  obtain ⟨ps, h₁, gs, hposts, hgets, rfl⟩ := expire_ok hexpire
  obtain ⟨hsame, hclock⟩ := expirePosts_ok hposts
  obtain ⟨hdues, hended⟩ := expireGets_ok hgets
  have hget₁ : h₁.exchange.get? key = some g := by rw [Exchange.get?, hsame]; exact hget
  obtain ⟨hmem₁, hkey⟩ := Exchange.of_get?_eq_some hget₁
  have hdue₁ : g.IsDue h₁.clock := by rw [hclock]; exact hdue
  obtain ⟨hempty, hmem⟩ := hdues g hmem₁ hdue₁
  have hgended : endedIn gs g = { g with status := .timedOut } := if_pos hmem
  refine ⟨hempty, List.mem_append_right _ (hkey ▸ hmem), ?_⟩
  rw [← hgended, Exchange.get?, hended]
  exact get?_map_endedIn hget₁

/-- A round that fails has failed on a post, or on a get that is due and has an empty key. -/
theorem fault_of_expire_error {clock : Int} {f : Failure} (hs : h.Sound) (hv : h.Served)
    (hclock : h.clock ≤ clock) (hexpire : h.expire now clock = (.error f, h')) :
    (expirePosts now h.exchange.posts { h with clock := clock }).1 = .error f ∨
      ∃ g ∈ h.exchange.gets, g.IsDue clock ∧ g.request.hasEmptyKey = true := by
  rcases expire_error hclock hexpire with hposts | ⟨ps, h₁, hposts, hgets⟩
  · exact Or.inl (congrArg Prod.fst hposts)
  · have hs₀ : Sound { h with clock := clock } := hs.alike ⟨rfl, rfl⟩
    obtain ⟨hs₁, -⟩ := expirePosts_evolves hs₀ (pending_posts hs₀) hposts
    have hv₁ : h₁.Served := by
      have hmoves := expirePosts_moves now h.exchange.posts { h with clock := clock }
      rw [hposts] at hmoves
      exact served_kept.moves (served_kept _ _ hv (.clock clock)) hmoves
    obtain ⟨hsame, hclock₁⟩ := expirePosts_ok hposts
    obtain ⟨g, hg, hdue, hempty⟩ := expireGets_error hs₁ hv₁ hv₁.sourced hgets
    rw [hsame] at hg
    rw [hclock₁] at hdue
    exact Or.inr ⟨g, hg, hdue, hempty⟩

/-- With no post to time out and no empty key, every round ends well. -/
theorem exists_expire_ok {clock : Int} (hs : h.Sound) (hv : h.Served) (hclock : h.clock ≤ clock)
    (hposts : h.exchange.posts = [])
    (hkeyed : ∀ g ∈ h.exchange.gets, g.request.hasEmptyKey = false) (now : Timestamp) :
    ∃ keys h', h.expire now clock = (.ok keys, h') := by
  rcases hexpire : h.expire now clock with ⟨f | keys, h'⟩
  · rcases fault_of_expire_error hs hv hclock hexpire with hround | ⟨g, hg, -, hempty⟩
    · rw [hposts] at hround
      cases hround
    · rw [hkeyed g hg] at hempty
      cases hempty
  · exact ⟨keys, h', rfl⟩

theorem isDue_of_le {g : TrackedGet} {clock : Int} (hstatus : g.status = .dispatched)
    (htimeout : g.request.timeout ≠ 0) (hle : g.request.timeout ≤ clock) : g.IsDue clock := by
  refine ⟨hstatus, ?_⟩
  rw [hasExpired, Bool.and_eq_true]
  exact ⟨bne_iff_ne.2 htimeout, decide_eq_true hle⟩

/-! ## A get for one key -/

/-- A host registers its only chain, whose module asks for the value of a key until 10. -/
def asked (key : String) : Host :=
  vacant.run
    [(⟨0⟩, .register "POLKADOT-2000" "0x00000000000000000000000000000000000000bb" .empty
        Ledger.isBuilt_empty),
      (⟨0⟩, .dispatchGet "POLKADOT-2000" "0x0000000000000000000000000000000000000001"
        ⟨"POLKADOT-2001", [key], 5, 10, 0⟩)]

def askedFields (b : Bytes) : Abi.Values GetEnvelope.layout :=
  (Utf8.encode "POLKADOT-2001", (5 : Nat), [b], (10 : Nat), (0 : Nat), ())

theorem encode_asked {key : String} {b : Bytes} (hkey : Envelope.bytesArgument key = .ok b) :
    GetEnvelope.encode (Chain.parachain .polkadot 2001).id [key] 5 10 0 =
      .ok (Envelope.write GetEnvelope.layout (askedFields b)) := by
  have hdest : (Chain.parachain .polkadot 2001).id = "POLKADOT-2001" := by decide
  refine GetEnvelope.encode_eq_ok.2 ⟨5, ⟨rfl, by decide⟩, 10, ⟨rfl, by decide⟩, 0,
    ⟨rfl, by decide⟩, [b], ?_, ?_⟩
  · rw [List.mapM_cons, hkey]
    rfl
  · rw [hdest]
    rfl

theorem asked_tracked (key : String) (b : Bytes)
    (hcheck : GetParams.check ⟨"POLKADOT-2001", [key], 5, 10, 0⟩ =
      .ok ⟨.parachain .polkadot 2001, [key], 5, 10, 0⟩)
    (hkey : Envelope.bytesArgument key = .ok b)
    (hsize : (Abi.encode (.tuple GetEnvelope.layout) (askedFields b)).length ≤ Abi.maxIndex) :
    ∃ g, (asked key).exchange.posts = [] ∧ (asked key).exchange.gets = [g] ∧
      (asked key).clock = 0 ∧ (asked key).exchange.get? "POLKADOT-2000/0" = some g ∧
      g.status = .dispatched ∧ g.request.timeout = 10 ∧ g.request.keys = [key] := by
  have hcaller : Address.parse? "0x0000000000000000000000000000000000000001" =
      some ⟨1, by decide⟩ := by decide
  obtain ⟨h', hcall, hposts, hgets⟩ := dispatchGet_tracked ⟨0⟩ (moduleOf_manned Ledger.sound_empty)
    (lane?_manned .empty) hcaller hcheck (encode_asked hkey) (Envelope.isIndexed_write.2 hsize) rfl
  have hasked : asked key = h' := by
    rw [asked, run_vacant]
    exact congrArg Prod.snd hcall
  have hclock := clock_call (manned .empty) "POLKADOT-2000" ⟨0⟩
    (.dispatchGet "0x0000000000000000000000000000000000000001" ⟨"POLKADOT-2001", [key], 5, 10, 0⟩)
  rw [hcall] at hclock
  rw [hasked, ← requestKey_outpost .empty]
  exact ⟨_, hposts, hgets, hclock, Exchange.get?_of_place hgets, rfl, rfl, rfl⟩

/-! ## Gets with a deadline -/

/-- After any run, a get in flight with a deadline can be timed out if and only if none of
its keys is empty.  From its deadline on, a round of timeouts that ends well has timed it
out, so there is none if a key is empty; and a round that fails has failed on a post or on
a get with an empty key. -/
theorem get_timeout (address : String) (clock₀ : Int) (d : Draws)
    (actions : List (Timestamp × Action)) :
    let h := (Host.new address clock₀ d).run actions
    ∀ key g, h.exchange.get? key = some g → g.status = .dispatched → g.request.timeout ≠ 0 →
      (∀ now, (∃ h', h.call g.request.source now (.onGetTimeout h.address g.request) = (.ok (), h'))
        ↔ g.request.hasEmptyKey = false) ∧
      ∀ now clock, h.clock ≤ clock → g.request.timeout ≤ clock →
        (∀ keys h', h.expire now clock = (.ok keys, h') →
          g.request.hasEmptyKey = false ∧ key ∈ keys ∧
            h'.exchange.get? key = some { g with status := .timedOut }) ∧
        ∀ f h', h.expire now clock = (.error f, h') →
          (expirePosts now h.exchange.posts { h with clock := clock }).1 = .error f ∨
            ∃ g' ∈ h.exchange.gets, g'.IsDue clock ∧ g'.request.hasEmptyKey = true := by
  intro h key g hget hstatus htimeout
  have hs : h.Sound := (sound_new address clock₀ d).run actions
  have hv : h.Served := served_run address clock₀ d actions
  have hsource := hv.sourced g (Exchange.of_get?_eq_some hget).1
  refine ⟨onGetTimeout_ok_iff hs hv hsource, fun now clock hclock hle => ⟨?_, ?_⟩⟩
  · intro keys h' hexpire
    exact get_of_expire_ok hget (isDue_of_le hstatus htimeout hle) hexpire
  · intro f h' hexpire
    exact fault_of_expire_error hs hv hclock hexpire

theorem get_timeout_asked :
    ∃ g, (asked "0x01").exchange.get? "POLKADOT-2000/0" = some g ∧ g.status = .dispatched ∧
      g.request.timeout ≠ 0 ∧
      (∀ now, ∃ h', (asked "0x01").call g.request.source now
        (.onGetTimeout (asked "0x01").address g.request) = (.ok (), h')) ∧
      ∀ now, ∃ keys h', (asked "0x01").expire now 10 = (.ok keys, h') ∧
        "POLKADOT-2000/0" ∈ keys ∧
        h'.exchange.get? "POLKADOT-2000/0" = some { g with status := .timedOut } := by
  obtain ⟨g, hposts, hgets, hclock, hget, hstatus, htimeout, hkeys⟩ :=
    asked_tracked "0x01" [1] (by decide +kernel) (by decide +kernel) (by decide +kernel)
  have hnonzero : g.request.timeout ≠ 0 := by
    rw [htimeout]
    decide
  have hempty : g.request.hasEmptyKey = false := by
    rw [GetRequest.hasEmptyKey, hkeys]
    decide +kernel
  obtain ⟨htaken, hrounds⟩ := get_timeout _ _ _ _ _ g hget hstatus hnonzero
  refine ⟨g, hget, hstatus, hnonzero, fun now => (htaken now).2 hempty, fun now => ?_⟩
  have hstarted : (asked "0x01").clock ≤ 10 := by
    rw [hclock]
    decide
  have hs : (asked "0x01").Sound := (sound_new _ _ _).run _
  have hv : (asked "0x01").Served := served_run _ _ _ _
  have hkeyed : ∀ g' ∈ (asked "0x01").exchange.gets, g'.request.hasEmptyKey = false := by
    rw [hgets]
    exact fun g' hg' => List.mem_singleton.1 hg' ▸ hempty
  obtain ⟨keys, h', hexpire⟩ := exists_expire_ok hs hv hstarted hposts hkeyed now
  have hround := (hrounds now 10 hstarted (Int.le_of_eq htimeout)).1 keys h' hexpire
  exact ⟨keys, h', hexpire, hround.2⟩

/-- A get for the empty key is dispatched like any other, its source never takes its
timeout, and from its deadline on no round of timeouts ends well. -/
theorem emptyKey_blocks_rounds :
    ∃ g, (asked "0x").exchange.get? "POLKADOT-2000/0" = some g ∧ g.status = .dispatched ∧
      g.request.timeout = 10 ∧
      (∀ now, ¬ ∃ h', (asked "0x").call g.request.source now
        (.onGetTimeout (asked "0x").address g.request) = (.ok (), h')) ∧
      ∀ now clock, 10 ≤ clock → ¬ ∃ keys h', (asked "0x").expire now clock = (.ok keys, h') := by
  obtain ⟨g, -, -, -, hget, hstatus, htimeout, hkeys⟩ :=
    asked_tracked "0x" [] (by decide +kernel) (by decide +kernel) (by decide +kernel)
  have hempty : g.request.hasEmptyKey = true := by
    rw [GetRequest.hasEmptyKey, hkeys]
    decide +kernel
  have hs : (asked "0x").Sound := (sound_new _ _ _).run _
  have hv : (asked "0x").Served := served_run _ _ _ _
  have hsource := hv.sourced g (Exchange.of_get?_eq_some hget).1
  refine ⟨g, hget, hstatus, htimeout, fun now htaken => ?_, fun now clock hclock hround => ?_⟩
  · have hfalse := (onGetTimeout_ok_iff hs hv hsource now).1 htaken
    rw [hempty] at hfalse
    cases hfalse
  · obtain ⟨keys, h', hexpire⟩ := hround
    have hdue : g.IsDue clock :=
      isDue_of_le hstatus (by rw [htimeout]; decide) (by rw [htimeout]; exact hclock)
    have hfalse := (get_of_expire_ok hget hdue hexpire).1
    rw [hempty] at hfalse
    cases hfalse

end Host
end Interchain
