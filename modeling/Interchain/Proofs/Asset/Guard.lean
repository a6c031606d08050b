/-
Only the host gets past the guard.

Six entry points are for the host (`ModuleCall.hostCaller?`), and each of them asks for it
before anything else.  So what a caller that is not the host gets to see depends on its own
name only, whatever it sends and whatever state the module is in, and nothing of the module
or its gateway changes (`guard_noninterference`).  Nothing behind the guard gives that
refusal again, so the host itself is never turned away as a stranger, however it spells its
address.
-/
import Interchain.Proofs.Asset.Call
import Interchain.Proofs.Envelope.RoundTrip

namespace Interchain

def Failure.code? : Failure → Option ErrorCode
  | .refused e => some e.cause.code
  | .argument _ | .raised _ => none

theorem Failure.code?_bind (context : Option RequestContext) (f : Failure) :
    (f.bind context).code? = f.code? := by
  rcases f with ⟨cause, _ | _⟩ | _ | _ <;> rfl

def ModuleCall.hostCaller? : ModuleCall → Option String
  | .transfer _ _ | .dispatchGet _ _ => none
  | .mint caller _ _ => some caller
  | .onAccept caller _ | .onPostTimeout caller _ | .onGetTimeout caller _ => some caller
  | .onPostResponse caller _ | .onGetResponse caller _ => some caller

/-- The codes that a call for the host can be refused with once the caller is known to be it. -/
def ModuleCall.refusals : ModuleCall → List ErrorCode
  | .transfer _ _ | .dispatchGet _ _ => []
  | .mint _ _ _ => [.validationFailed, .overflow]
  | .onAccept _ _ | .onPostTimeout _ _ => [.decodeError, .overflow]
  | .onPostResponse _ _ => [.decodeError]
  | .onGetResponse _ _ | .onGetTimeout _ _ => [.validationFailed]

/-- Behind the guard nobody is turned away, and nothing is said of deadlines or gateways. -/
theorem ModuleCall.code_of_refusals (c : ModuleCall) :
    ∀ code ∈ c.refusals, code ∈ [ErrorCode.validationFailed, .decodeError, .overflow] := by
  unfold refusals
  split <;> decide

def Address.small (b : UInt8) : Address := .ofNat b.toNat (Nat.lt_trans b.toNat_lt (by decide))

def Address.IsSpelledBy (a : Address) (t : String) : Prop :=
  ∃ b, parse? t = some b ∧ b.render = a.render

theorem Address.isSpelledBy_iff {a : Address} {t : String} :
    a.IsSpelledBy t ↔ parse? t = some a := by
  constructor
  · rintro ⟨b, hb, hrender⟩
    rw [hb, render_injective hrender]
  · intro h
    exact ⟨a, h, rfl⟩

namespace Site

open Ledger

variable {σ : Type} {g : Gateway σ} {now : Timestamp} {m : AssetModule} {c : ModuleCall}
  {caller : String}

/-! ## Behind the guard -/

def Admits (f : Failure) : Prop := f.code? ≠ some .unauthorized

/-- A refusal with one of these codes, bound to no request yet. -/
def RefusedWith (codes : List ErrorCode) (f : Failure) : Prop :=
  ∃ cause : Cause, f = .ofCause cause ∧ cause.code ∈ codes

def Refuses {α : Type} (codes : List ErrorCode) (w : Work σ α) : Prop :=
  w.Raises (RefusedWith codes)

/-- A failure of a call behind the guard.  Only an acknowledgement leaves one without a code. -/
def FailsBehind (c : ModuleCall) (f : Failure) : Prop :=
  RefusedWith c.refusals f ∨ c.entry = .onAccept ∧ ∃ fault, f = .argument fault

variable {codes : List ErrorCode}

theorem refuses_check {α : Type} {r : Except Cause α} {code : ErrorCode}
    (hr : ∀ cause, r = .error cause → cause.code = code) (hcode : code ∈ codes) :
    Refuses codes (.check r : Work σ α) :=
  Work.raises_check (fun cause h => ⟨cause, rfl, (hr cause h).symm ▸ hcode⟩)

theorem code_of_creditAccount {l : Ledger} {a : Address} {n : Nat} {cause : Cause}
    (h : l.creditAccount a n = .error cause) : cause.code = .overflow := by
  rw [creditAccount] at h
  split at h
  · cases h
    rfl
  · cases h

theorem refuses_measure (f : Metrics → Metrics) : Refuses codes (measure f : Work σ Unit) :=
  Work.raises_modify _

theorem refuses_emit (e : AssetEvent) : Refuses codes (emit e : Work σ Unit) :=
  Work.raises_modify _

theorem refuses_mintTo (o : LedgerOperation) (a : Address) (n : Nat)
    (hcode : .overflow ∈ codes) : Refuses codes (mintTo o a n : Work σ Unit) := by
  refine Work.raises_bind (Work.raises_move (fun l cause h => ?_)) (fun _ => refuses_measure _)
  exact ⟨cause, rfl, (code_of_creditAccount h).symm ▸ hcode⟩

theorem refuses_decode (t : String) (hcode : .decodeError ∈ codes) :
    Refuses codes (.check (Payload.decode t) : Work σ Payload) :=
  refuses_check (fun _ => Payload.code_of_decode) hcode

/-- What goes wrong with an acknowledgement is not heard of, unless it cannot be reported. -/
theorem raises_acknowledge (r : PostRequest) :
    (acknowledge g m r).Raises (fun f => ∃ fault, f = .argument fault) := by
  intro s f s' h
  rw [acknowledge_apply] at h
  cases huntold : untold g m r s.2.gateway with
  | none =>
    rw [huntold] at h
    cases h
  | some fault =>
    rw [huntold] at h
    cases h
    exact ⟨fault, rfl⟩

theorem code_of_address {t field : String} {cause : Cause}
    (h : Params.address t field = .error cause) : cause.code = .validationFailed := by
  rw [Params.address] at h
  split at h
  · cases h
    rfl
  · cases h

theorem code_of_holder {a : Address} {cause : Cause} (h : holder a = .error cause) :
    cause.code = .validationFailed := by
  rw [holder] at h
  split at h
  · cases h
    rfl
  · cases h

theorem code_of_amount {n : Int} {cause : Cause} (h : Ledger.amount n = .error cause) :
    cause.code = .validationFailed := by
  rw [Ledger.amount] at h
  split at h
  · cases h
    rfl
  · cases h

theorem code_of_ensureValues {vs : List StorageValue} {cause : Cause}
    (h : ensureValues vs = .error cause) : cause.code = .validationFailed := by
  rw [ensureValues] at h
  split at h
  · cases h
    rfl
  · cases h

theorem code_of_ensureKeys {ks : List String} {cause : Cause}
    (h : ensureKeys ks = .error cause) : cause.code = .validationFailed := by
  rw [ensureKeys] at h
  split at h
  · cases h
    rfl
  · cases h

theorem Refuses.behind {α : Type} {w : Work σ α} (h : Refuses c.refusals w) :
    w.Raises (FailsBehind c) := h.mono (fun _ => Or.inl)

/-- A call for the host is the guard and then work that fails in its own ways only. -/
theorem workOf_guarded (g : Gateway σ) (now : Timestamp) (m : AssetModule)
    (hc : c.hostCaller? = some caller) :
    ∃ work : Work σ Unit, work.Raises (FailsBehind c) ∧
      workOf g now m c = .check (ensureHost caller m.host) >>= fun _ => work := by
  cases c with
  | transfer | dispatchGet => cases hc
  | mint _ account amount =>
    cases hc
    refine ⟨_, Refuses.behind ?_, rfl⟩
    refine Work.raises_bind (refuses_check (fun _ => code_of_address) (.head _)) (fun a => ?_)
    refine Work.raises_bind (refuses_check (fun _ => code_of_amount) (.head _)) (fun n => ?_)
    refine Work.raises_bind (refuses_check (fun _ => code_of_holder) (.head _)) (fun _ => ?_)
    exact Work.raises_bind (refuses_mintTo _ _ _ (.tail _ (.head _))) (fun _ => refuses_emit _)
  | onAccept _ r =>
    cases hc
    refine ⟨_, ?_, rfl⟩
    refine Work.raises_bind (Refuses.behind (refuses_decode r.body (.head _))) (fun p => ?_)
    refine Work.raises_bind (Refuses.behind (refuses_mintTo _ _ _ (.tail _ (.head _))))
      (fun _ => ?_)
    refine Work.raises_bind ?_ (fun _ => Refuses.behind (refuses_emit _))
    -- of all steps behind the guard, this is the only one that can fail without a code
    exact (raises_acknowledge r).mono (fun _ h => Or.inr ⟨rfl, h⟩)
  | onPostTimeout _ r =>
    cases hc
    refine ⟨_, Refuses.behind ?_, rfl⟩
    refine Work.raises_bind (refuses_decode r.body (.head _)) (fun p => ?_)
    exact Work.raises_bind (refuses_mintTo _ _ _ (.tail _ (.head _))) (fun _ => refuses_emit _)
  | onPostResponse _ p =>
    cases hc
    refine ⟨_, Refuses.behind ?_, rfl⟩
    exact Work.raises_bind (refuses_decode p.request.body (.head _)) (fun _ => refuses_emit _)
  | onGetResponse _ p =>
    cases hc
    refine ⟨_, Refuses.behind ?_, rfl⟩
    exact Work.raises_bind (refuses_check (fun _ => code_of_ensureValues) (.head _))
      (fun _ => refuses_emit _)
  | onGetTimeout _ r =>
    cases hc
    refine ⟨_, Refuses.behind ?_, rfl⟩
    exact Work.raises_bind (refuses_check (fun _ => code_of_ensureKeys) (.head _))
      (fun _ => refuses_emit _)

/-! ## The guard -/

/-- The call is refused for the cause, bound to its own request, and leaves no trace. -/
structure TurnsAway (g : Gateway σ) (now : Timestamp) (c : ModuleCall) (cause : Cause)
    (site : Site σ) : Prop where
  refused : (site.call g now c).1 = .error (.refused ⟨cause, c.context⟩)
  assets : (site.call g now c).2.assets = site.assets
  gateway : (site.call g now c).2.gateway = site.gateway

theorem turnsAway_stranger (g : Gateway σ) (now : Timestamp) (hc : c.hostCaller? = some caller)
    (site : Site σ) (hcaller : ¬ site.assets.host.IsSpelledBy caller) :
    TurnsAway g now c (.notHost caller) site := by
  obtain ⟨work, -, hwork⟩ := workOf_guarded g now site.assets hc
  have hguard : ensureHost caller site.assets.host = .error (.notHost caller) :=
    if_neg (fun h => hcaller (Address.isSpelledBy_iff.2 h))
  have hcall : site.call g now c = (.error (.refused ⟨.notHost caller, c.context⟩), { site with
      metrics := site.metrics.invoked c.entry (.failed ErrorCode.unauthorized.name) }) := by
    rw [call, execute, hwork, hguard]
    rfl
  exact ⟨congrArg Prod.fst hcall, congrArg (·.2.assets) hcall, congrArg (·.2.gateway) hcall⟩

theorem raised_of_call {P : Failure → Prop} {site : Site σ} {f : Failure}
    (hraises : (workOf g now site.assets c).Raises P) (hcall : (site.call g now c).1 = .error f) :
    ∃ e, P e ∧ f = e.bind c.context := by
  rw [fst_call] at hcall
  rcases hrun : workOf g now site.assets c
    ((Session.start site.assets.ledger).opened, ⟨[], site.gateway, site.metrics⟩)
    with ⟨e | _, t, d⟩
  · rw [hrun] at hcall
    cases hcall
    exact ⟨e, hraises _ _ _ hrun, rfl⟩
  · rw [hrun] at hcall
    cases hcall

theorem failure_of_host (g : Gateway σ) (now : Timestamp) (hc : c.hostCaller? = some caller)
    (site : Site σ) (hcaller : site.assets.host.IsSpelledBy caller) {f : Failure}
    (hcall : (site.call g now c).1 = .error f) :
    (∃ cause, f = .refused ⟨cause, c.context⟩ ∧ cause.code ∈ c.refusals) ∨
      c.entry = .onAccept ∧ ∃ fault, f = .argument fault := by
  obtain ⟨work, hraises, hwork⟩ := workOf_guarded g now site.assets hc
  have hall : (workOf g now site.assets c).Raises (FailsBehind c) := by
    rw [hwork, ensureHost, if_pos (Address.isSpelledBy_iff.1 hcaller)]
    exact Work.raises_bind (fun _ _ _ h => by cases h) (fun _ => hraises)
  obtain ⟨_, ⟨cause, rfl, hcode⟩ | ⟨hentry, fault, rfl⟩, rfl⟩ := raised_of_call hall hcall
  · exact Or.inl ⟨cause, rfl, hcode⟩
  · exact Or.inr ⟨hentry, fault, rfl⟩

theorem admits_host (g : Gateway σ) (now : Timestamp) (hc : c.hostCaller? = some caller)
    (site : Site σ) (hcaller : site.assets.host.IsSpelledBy caller) {f : Failure}
    (hcall : (site.call g now c).1 = .error f) : Admits f := by
  intro hrefused
  obtain ⟨cause, rfl, hcode⟩ | ⟨-, fault, rfl⟩ := failure_of_host g now hc site hcaller hcall
  · have hunauthorized : cause.code = .unauthorized := Option.some.inj hrefused
    have hmem := c.code_of_refusals _ hcode
    rw [hunauthorized] at hmem
    exact absurd hmem (by decide)
  · cases hrefused

/-- Take two calls for the host by one caller, of whatever kind and with whatever arguments,
and two modules under one host, with whatever ledgers, events and gateways.  If the caller
is not the host, both calls are refused for one cause, each bound to its own request, and
nothing of either module or gateway changes.  If the caller spells the address of the host,
in any way that is read, no failure says that it is unauthorized. -/
theorem guard_noninterference {σ' : Type} (g : Gateway σ) (g' : Gateway σ')
    (now now' : Timestamp) {c c' : ModuleCall} (hc : c.hostCaller? = some caller)
    (hc' : c'.hostCaller? = some caller) (site : Site σ) (site' : Site σ')
    (hhost : site'.assets.host = site.assets.host) :
    (¬ site.assets.host.IsSpelledBy caller →
      ∃ cause, cause.code = .unauthorized ∧ cause.message = s!"Caller {caller} is not the host" ∧
        TurnsAway g now c cause site ∧ TurnsAway g' now' c' cause site') ∧
    (site.assets.host.IsSpelledBy caller →
      ∀ f, (site.call g now c).1 = .error f → f.code? ≠ some .unauthorized) := by
  constructor
  · intro hcaller
    refine ⟨.notHost caller, rfl, rfl, turnsAway_stranger g now hc site hcaller, ?_⟩
    rw [← hhost] at hcaller
    exact turnsAway_stranger g' now' hc' site' hcaller
  · intro hcaller f hcall
    exact admits_host g now hc site hcaller hcall

def watched : Site Unit :=
  ⟨⟨.parachain .polkadot 2000, .small 170, .small 2, ⟨[(.small 1, 7)], 7⟩, []⟩, (), .zero⟩

def failing : Gateway Unit := .ofReplies (fun _ _ st => (.raised "down", st))

/-- A gateway that raises an object with a `toString` of its own, which is none. -/
def speechless : Gateway Unit :=
  ⟨fun _ _ st => (.raised (.value (some (.object [("toString", .null)]))), st)⟩

def hollow : PostRequest := ⟨"", "", -1, "", "module", 0, "0x", 0⟩

def senseless (caller : String) : ModuleCall := .mint caller "nobody" (-5)

/-- Account 1 can neither mint nor deliver, and for one and the same reason.  The host can,
written in capitals and without mark, and is refused for what it asks. -/
theorem guard_noninterference_watched :
    (∃ cause, cause.code = .unauthorized ∧
      TurnsAway failing ⟨0⟩ (senseless "0x0000000000000000000000000000000000000001") cause watched ∧
      TurnsAway failing ⟨1⟩ (.onAccept "0x0000000000000000000000000000000000000001" hollow) cause
        { watched with assets.ledger := .empty }) ∧
    watched.assets.host.IsSpelledBy "00000000000000000000000000000000000000AA" ∧
    (watched.call failing ⟨0⟩ (senseless "00000000000000000000000000000000000000AA")).1 =
      .error (.refused ⟨.notAddress "to", none⟩) ∧
    ∀ f, (watched.call failing ⟨0⟩ (senseless "00000000000000000000000000000000000000AA")).1 =
      .error f → f.code? ≠ some .unauthorized := by
  have hcaller (caller : String) : (senseless caller).hostCaller? = some caller := rfl
  have haccept (caller : String) : (ModuleCall.onAccept caller hollow).hostCaller? = some caller :=
    rfl
  have hstranger : ¬ watched.assets.host.IsSpelledBy
      "0x0000000000000000000000000000000000000001" := by
    rw [Address.isSpelledBy_iff]
    decide +kernel
  have hhost : watched.assets.host.IsSpelledBy "00000000000000000000000000000000000000AA" :=
    Address.isSpelledBy_iff.2 (by decide +kernel)
  obtain ⟨cause, hcode, -, hfirst, hsecond⟩ :=
    (guard_noninterference failing failing ⟨0⟩ ⟨1⟩ (hcaller _) (haccept _) watched
      { watched with assets.ledger := .empty } rfl).1 hstranger
  refine ⟨⟨cause, hcode, hfirst, hsecond⟩, hhost, rfl, ?_⟩
  exact (guard_noninterference failing failing ⟨0⟩ ⟨0⟩ (hcaller _) (hcaller _) watched watched
    rfl).2 hhost

end Site
end Interchain
