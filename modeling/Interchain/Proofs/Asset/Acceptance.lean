/-
How an acknowledgement bears on the mint before it.

A module that accepts a request mints first and acknowledges then, in one unit, so that a
failure to acknowledge would take the mint back.  Only one kind of failure gets that far: the
gateway raises something, and to report it fails (`untold`).  `accepted` is what accepting comes
to with no gateway in it but that fault, and every call is exactly that (`call_onAccept`).  What
is left of the question when a request is accepted is the ledger, and there the supply decides:
a balance is never above it (`onAccept_regardless`).
-/
import Interchain.Proofs.Asset.Guard
import Interchain.Proofs.Asset.Progress

namespace Interchain
namespace Site

open Ledger

variable {σ : Type} {g : Gateway σ} {now : Timestamp} {m : AssetModule} {caller body : String}

/-! ## What accepting comes to -/

/-- Who calls, what the body says and what the ledger takes decide on a request, in this order. -/
def admission (m : AssetModule) (caller body : String) : Except Cause (Payload × Movement) := do
  ensureHost caller m.host
  let p ← Payload.decode body
  let move ← m.ledger.creditAccount p.recipient p.amount
  return (p, move)

theorem admission_eq_ok {p : Payload} {move : Movement} :
    admission m caller body = .ok (p, move) ↔ m.host.IsSpelledBy caller ∧
      Payload.decode body = .ok p ∧ m.ledger.creditAccount p.recipient p.amount = .ok move := by
  simp only [admission, bind_eq_ok, pure_eq_ok, Prod.mk.injEq, Address.isSpelledBy_iff,
    ensureHost_eq_ok.symm]
  constructor
  · rintro ⟨_, hhost, _, hdecode, _, hmove, rfl, rfl⟩
    exact ⟨hhost, hdecode, hmove⟩
  · rintro ⟨hhost, hdecode, hmove⟩
    exact ⟨_, hhost, _, hdecode, _, hmove, rfl, rfl⟩

def accepted (now : Timestamp) (m : AssetModule) (caller body : String) :
    Option ArgumentFault → Except Failure Unit × AssetModule :=
  match admission m caller body with
  | .error cause => fun _ => (.error (.ofCause cause), m)
  | .ok (p, move) => fun fault? =>
    match fault? with
    | some fault => (.error (.argument fault), m)
    | none => (.ok (), { m with
        ledger := m.ledger.apply move
        outbox := m.outbox ++ [m.event now (.balanceMinted p.sender.render p.recipient.render
          p.recipient.render p.amount .accept)] })

theorem accepted_of_error {cause : Cause} (h : admission m caller body = .error cause)
    (fault? : Option ArgumentFault) :
    accepted now m caller body fault? = (.error (.ofCause cause), m) := by
  rw [accepted, h]

theorem accepted_of_fault {p : Payload} {move : Movement}
    (h : admission m caller body = .ok (p, move)) (fault : ArgumentFault) :
    accepted now m caller body (some fault) = (.error (.argument fault), m) := by
  rw [accepted, h]

theorem accepted_of_ok {p : Payload} {move : Movement}
    (h : admission m caller body = .ok (p, move)) : accepted now m caller body none =
      (.ok (), { m with
        ledger := m.ledger.apply move
        outbox := m.outbox ++ [m.event now (.balanceMinted p.sender.render p.recipient.render
          p.recipient.render p.amount .accept)] }) := by
  rw [accepted, h]

section

variable {r : PostRequest} {s : Session × Desk σ}

theorem mintTo_apply {o : LedgerOperation} {a : Address} {n : Nat} {move : Movement}
    (h : s.1.ledger.creditAccount a n = .ok move) : mintTo o a n s =
      (.ok (), s.1.move move, ⟨s.2.pending, s.2.gateway, s.2.metrics.operated o⟩) := by
  rw [mintTo, Work.bind_apply, Work.move, h]
  rfl

theorem mintTo_of_error {o : LedgerOperation} {a : Address} {n : Nat} {cause : Cause}
    (h : s.1.ledger.creditAccount a n = .error cause) :
    mintTo o a n s = (.error (.ofCause cause), s) := by
  rw [mintTo, Work.bind_apply, Work.move, h]

/-- A request that is not admitted is refused before anything is done. -/
theorem onAccept_of_error {cause : Cause} (hledger : s.1.ledger = m.ledger)
    (h : admission m caller r.body = .error cause) :
    onAccept g now m caller r s = (.error (.ofCause cause), s) := by
  obtain hhost | ⟨_, hhost, hbody⟩ := bind_eq_error.1 h
  · rw [onAccept, hhost]
    rfl
  obtain hdecode | ⟨p, hdecode, hcredit⟩ := bind_eq_error.1 hbody
  · rw [onAccept, hhost, hdecode]
    rfl
  obtain hmove | ⟨move, -, hpure⟩ := bind_eq_error.1 hcredit
  · rw [← hledger] at hmove
    rw [onAccept, hhost, hdecode]
    show (mintTo .mint p.recipient p.amount >>= _ : Work σ Unit) s = _
    rw [Work.bind_apply, mintTo_of_error hmove]
  · cases hpure

/-- A fault of the report is the failure.  The mint was made and counted by then. -/
theorem onAccept_of_fault {p : Payload} {move : Movement} {fault : ArgumentFault}
    (hledger : s.1.ledger = m.ledger) (h : admission m caller r.body = .ok (p, move))
    (huntold : untold g m r s.2.gateway = some fault) : onAccept g now m caller r s =
      (.error (.argument fault), s.1.move move, ⟨s.2.pending, acknowledged g m r s.2.gateway,
        (s.2.metrics.operated .mint).acknowledgementFailed⟩) := by
  obtain ⟨hcaller, hdecode, hmove⟩ := admission_eq_ok.1 h
  rw [← hledger] at hmove
  rw [onAccept, ensureHost_eq_ok.2 (Address.isSpelledBy_iff.1 hcaller), hdecode]
  show (mintTo .mint p.recipient p.amount >>= fun _ => acknowledge g m r >>= _ : Work σ Unit) s = _
  rw [Work.bind_apply, mintTo_apply hmove]
  show (acknowledge g m r >>= _ : Work σ Unit) _ = _
  rw [Work.bind_apply, acknowledge_apply, huntold, answers_of_untold huntold]
  rfl

end

/-- The gateway bears on a request with the fault only that the report of what it raised has. -/
theorem call_onAccept (g : Gateway σ) (now : Timestamp) (caller : String) (r : PostRequest)
    (site : Site σ) :
    (site.call g now (.onAccept caller r)).1 =
        (accepted now site.assets caller r.body (untold g site.assets r site.gateway)).1.mapError
          (.bind r.context) ∧
      (site.call g now (.onAccept caller r)).2.assets =
        (accepted now site.assets caller r.body (untold g site.assets r site.gateway)).2 := by
  rcases hcall : site.call g now (.onAccept caller r) with ⟨f | _, site'⟩
  · have hfailed : (site.call g now (.onAccept caller r)).1 = .error f := by rw [hcall]
    rw [fst_call, workOf] at hfailed
    obtain ⟨hassets, -⟩ := call_error hcall
    cases hadmission : admission site.assets caller r.body with
    | error cause =>
      rw [onAccept_of_error rfl hadmission] at hfailed
      rw [accepted_of_error hadmission]
      exact ⟨hfailed.symm, hassets⟩
    | ok q =>
      obtain ⟨p, move⟩ := q
      obtain ⟨hcaller, hdecode, hmove⟩ := admission_eq_ok.1 hadmission
      cases huntold : untold g site.assets r site.gateway with
      -- nothing stands against the request, which would have been accepted
      | none =>
        obtain ⟨metrics, hok⟩ := call_of_commit site now (.onAccept
          (ensureHost_eq_ok.2 (Address.isSpelledBy_iff.1 hcaller)) hdecode hmove huntold)
        cases hcall.symm.trans hok
      | some fault =>
        rw [onAccept_of_fault rfl hadmission huntold] at hfailed
        rw [accepted_of_fault hadmission]
        exact ⟨hfailed.symm, hassets⟩
  · obtain ⟨l, body, hcommit, hassets⟩ := call_ok hcall
    generalize site'.gateway = st' at hcommit
    cases hcommit with
    | onAccept hhost hdecode hmove huntold =>
      rw [huntold, accepted_of_ok (admission_eq_ok.2
        ⟨Address.isSpelledBy_iff.2 (ensureHost_eq_ok.1 hhost), hdecode, hmove⟩)]
      exact ⟨rfl, hassets⟩

theorem call_onAccept_eq_ok {r : PostRequest} {site : Site σ} :
    (site.call g now (.onAccept caller r)).1 = .ok () ↔
      (∃ q, admission site.assets caller r.body = .ok q) ∧
        untold g site.assets r site.gateway = none := by
  rw [(call_onAccept g now caller r site).1]
  cases hadmission : admission site.assets caller r.body with
  | error cause =>
    rw [accepted_of_error hadmission]
    exact iff_of_false (fun h => nomatch h) (fun ⟨⟨_, h⟩, _⟩ => nomatch h)
  | ok q =>
    cases untold g site.assets r site.gateway with
    | none =>
      rw [accepted_of_ok hadmission]
      exact iff_of_true rfl ⟨⟨q, rfl⟩, rfl⟩
    | some fault =>
      rw [accepted_of_fault hadmission]
      exact iff_of_false (fun h => nomatch h) (fun h => nomatch h.2)

/-- An acceptance that fails in any other way than by a refusal fails with its report. -/
theorem call_onAccept_eq_fault {r : PostRequest} {site : Site σ} {fault : ArgumentFault} :
    (site.call g now (.onAccept caller r)).1 = .error (.argument fault) ↔
      (∃ q, admission site.assets caller r.body = .ok q) ∧
        untold g site.assets r site.gateway = some fault := by
  rw [(call_onAccept g now caller r site).1]
  cases hadmission : admission site.assets caller r.body with
  | error cause =>
    rw [accepted_of_error hadmission]
    exact iff_of_false (fun h => nomatch h) (fun ⟨⟨_, h⟩, _⟩ => nomatch h)
  | ok q =>
    cases untold g site.assets r site.gateway with
    | none =>
      rw [accepted_of_ok hadmission]
      exact iff_of_false (fun h => nomatch h) (fun h => nomatch h.2)
    | some fault' =>
      rw [accepted_of_fault hadmission]
      constructor
      · intro h
        cases h
        exact ⟨⟨q, rfl⟩, rfl⟩
      · rintro ⟨-, h⟩
        cases h
        rfl

theorem metrics_of_fault {r : PostRequest} {site : Site σ} {q : Payload × Movement}
    {fault : ArgumentFault} (h : admission site.assets caller r.body = .ok q)
    (huntold : untold g site.assets r site.gateway = some fault) :
    (site.call g now (.onAccept caller r)).2.metrics =
      (site.metrics.operated .mint).acknowledgementFailed.invoked .onAccept
        (.failed (Failure.argument fault).outcome) := by
  have hjournal : (Session.start site.assets.ledger).journal = none := rfl
  have hrun : onAccept g now site.assets caller r
      ((Session.start site.assets.ledger).opened, ⟨[], site.gateway, site.metrics⟩) = _ :=
    onAccept_of_fault rfl h huntold
  simp only [call, execute, workOf, Work.atomically, hjournal, hrun]
  rfl

/-! ## When a request is accepted -/

structure Minted (now : Timestamp) (m : AssetModule) (p : Payload) (m' : AssetModule) : Prop where
  balance : m'.ledger.balance p.recipient = m.ledger.balance p.recipient + p.amount
  supply : m'.ledger.supply = m.ledger.supply + p.amount
  others : ∀ a, a ≠ p.recipient → m'.ledger.balance a = m.ledger.balance a
  outbox : m'.outbox = m.outbox ++ [m.event now (.balanceMinted p.sender.render
    p.recipient.render p.recipient.render p.amount .accept)]

/-- The caller is the host, the body is a payload, and the supply can take the amount. -/
def Acceptable (m : AssetModule) (caller body : String) : Prop :=
  m.host.IsSpelledBy caller ∧
    ∃ p, Payload.decode body = .ok p ∧ m.ledger.supply + p.amount ≤ maxUint256

theorem acceptable_of_admission {q : Payload × Movement}
    (h : admission m caller body = .ok q) : Acceptable m caller body := by
  obtain ⟨hcaller, hdecode, hmove⟩ := admission_eq_ok.1 h
  exact ⟨hcaller, _, hdecode, (creditAccount_eq_ok.1 hmove).2.1⟩

theorem acceptable_iff (hl : m.ledger.Sound) :
    Acceptable m caller body ↔ ∃ q, admission m caller body = .ok q := by
  constructor
  · rintro ⟨hcaller, p, hdecode, hsupply⟩
    exact ⟨_, admission_eq_ok.2 ⟨hcaller, hdecode, hl.creditAccount_eq_ok hsupply p.recipient⟩⟩
  · rintro ⟨q, h⟩
    exact acceptable_of_admission h

theorem minted_of_admission {p : Payload} {move : Movement}
    (h : admission m caller body = .ok (p, move)) :
    Minted now m p (accepted now m caller body none).2 := by
  obtain ⟨-, -, hmove⟩ := admission_eq_ok.1 h
  obtain ⟨rfl, -, -⟩ := creditAccount_eq_ok.1 hmove
  rw [accepted_of_ok h]
  exact ⟨balance_apply_self _ _, rfl, fun a ha => balance_apply_of_ne _ _ ha, rfl⟩

/-- A module accepts a request if and only if the caller is the host, the body is a payload,
the supply can take the amount, and nothing is raised at the acknowledgement whose report fails.
It then mints the amount to the recipient, moves no other balance and commits one event.  With a
fault of the report the call fails instead, for that fault, and like every call that fails it
leaves the module as it was, the mint taken back.  So whatever two gateways answer, and for
another request with the same body, whether or not its answer can be written, all this is the
same if the faults are, and if there is none; only the request that a failure is bound to is
another. -/
theorem onAccept_regardless {σ' : Type} (g : Gateway σ) (g' : Gateway σ') (now : Timestamp)
    (caller : String) (r r' : PostRequest) (hbody : r'.body = r.body) (site : Site σ)
    (site' : Site σ') (hassets : site'.assets = site.assets)
    (hbuilt : site.assets.ledger.IsBuilt) :
    ((site.call g now (.onAccept caller r)).1 = .ok () ↔
      Acceptable site.assets caller r.body ∧ untold g site.assets r site.gateway = none) ∧
    ((site.call g now (.onAccept caller r)).1 = .ok () → ∃ p, Payload.decode r.body = .ok p ∧
      Minted now site.assets p (site.call g now (.onAccept caller r)).2.assets) ∧
    (∀ fault, Acceptable site.assets caller r.body →
      untold g site.assets r site.gateway = some fault →
        (site.call g now (.onAccept caller r)).1 = .error (.argument fault)) ∧
    (∀ f, (site.call g now (.onAccept caller r)).1 = .error f →
      (site.call g now (.onAccept caller r)).2.assets = site.assets) ∧
    (untold g' site'.assets r' site'.gateway = untold g site.assets r site.gateway →
      (site'.call g' now (.onAccept caller r')).2.assets =
        (site.call g now (.onAccept caller r)).2.assets ∧
      ∃ outcome : Except Failure Unit,
        (site.call g now (.onAccept caller r)).1 = outcome.mapError (.bind r.context) ∧
        (site'.call g' now (.onAccept caller r')).1 = outcome.mapError (.bind r'.context)) := by
  have hadmission : Acceptable site.assets caller r.body ↔ _ := acceptable_iff hbuilt.sound
  obtain ⟨houtcome, hmodule⟩ := call_onAccept g now caller r site
  refine ⟨by rw [hadmission, call_onAccept_eq_ok], fun hok => ?_,
    fun fault hacceptable huntold => ?_, fun f => assets_of_error, fun huntold => ?_⟩
  · obtain ⟨⟨⟨p, move⟩, hq⟩, huntold⟩ := call_onAccept_eq_ok.1 hok
    rw [hmodule, huntold]
    exact ⟨p, (admission_eq_ok.1 hq).2.1, minted_of_admission hq⟩
  · exact call_onAccept_eq_fault.2 ⟨hadmission.1 hacceptable, huntold⟩
  · obtain ⟨houtcome', hmodule'⟩ := call_onAccept g' now caller r' site'
    rw [hassets, hbody] at houtcome' hmodule'
    rw [hassets] at huntold
    rw [huntold] at houtcome' hmodule'
    exact ⟨hmodule'.trans hmodule.symm, _, houtcome, houtcome'⟩

def vacant : Site Unit :=
  ⟨⟨.parachain .polkadot 2000, .small 170, .small 2, .empty, []⟩, (), .zero⟩

def agreeable : Gateway Unit := ⟨fun _ _ st => (.accepted 0, st)⟩

def gift : Payload := ⟨.small 2, .small 1, 5⟩

/-- A request that carries the gift.  It can be answered if its number has a place on the wire. -/
def bearing (nonce : Int) : PostRequest :=
  ⟨"", "", nonce, "0x", "0x", 0, Hex.render gift.encode, 0⟩

theorem decode_bearing (nonce : Int) : Payload.decode (bearing nonce).body = .ok gift :=
  Payload.decode_render ⟨by decide, by decide, by decide⟩

theorem acceptable_bearing (nonce : Int) :
    Acceptable vacant.assets "0x00000000000000000000000000000000000000aa" (bearing nonce).body :=
  ⟨Address.isSpelledBy_iff.2 (by decide +kernel), gift, decode_bearing nonce, by decide⟩

def giving (nonce : Int) : ModuleCall :=
  .onAccept "0x00000000000000000000000000000000000000aa" (bearing nonce)

def present (g : Gateway Unit) (nonce : Int) : Except Failure Unit × Site Unit :=
  vacant.call g ⟨0⟩ (giving nonce)

/-- The gift is minted alike before a gateway that accepts and, with no answer that could be
written, before one that always fails. -/
theorem onAccept_regardless_vacant :
    (present agreeable 0).1 = .ok () ∧ (present failing (-1)).1 = .ok () ∧
      Minted ⟨0⟩ vacant.assets gift (present agreeable 0).2.assets ∧
      (present failing (-1)).2.assets = (present agreeable 0).2.assets := by
  rw [present, present, giving, giving]
  obtain ⟨hiff, hminted, -, -, hsame⟩ :=
    onAccept_regardless agreeable failing ⟨0⟩ "0x00000000000000000000000000000000000000aa"
      (bearing 0) (bearing (-1)) rfl vacant vacant rfl isBuilt_empty
  have hok := hiff.2 ⟨acceptable_bearing 0, untold_eq_none (fun _ => rfl) _⟩
  obtain ⟨p, hp, hminted⟩ := hminted hok
  rw [decode_bearing, Except.ok.injEq] at hp
  subst hp
  obtain ⟨hmodule, outcome, houtcome, houtcome'⟩ := hsame
    ((untold_ofReplies _ _ _ _).trans (untold_eq_none (fun _ => rfl) _).symm)
  have hfine : outcome = .ok () := by
    cases outcome with
    | error f => cases hok.symm.trans houtcome
    | ok _ => rfl
  rw [hfine] at houtcome'
  exact ⟨hok, houtcome', hminted, hmodule⟩

theorem exists_admission_bearing (nonce : Int) : ∃ q, admission vacant.assets
    "0x00000000000000000000000000000000000000aa" (bearing nonce).body = .ok q := by
  have hsound : vacant.assets.ledger.Sound := isBuilt_empty.sound
  exact (acceptable_iff hsound).1 (acceptable_bearing nonce)

theorem isWritable_bearing : (bearing 0).IsWritable where
  nonce := by decide
  fromModule := Hex.isByteText_render []
  toModule := Hex.isByteText_render []
  timeout := by decide
  body := Hex.isByteText_render _
  gasLimit := by decide

theorem untold_speechless : untold speechless vacant.assets (bearing 0) () = some .noText := by
  obtain ⟨envelope, hencode, -⟩ :=
    acknowledgement_of_writable (m := vacant.assets) (by decide) isWritable_bearing
  rw [untold, hencode]
  rfl

theorem present_speechless : (present speechless 0).1 = .error (.argument .noText) := by
  rw [present, giving]
  exact call_onAccept_eq_fault.2 ⟨exists_admission_bearing 0, untold_speechless⟩

/-- Before a gateway without words the call fails and takes the gift back, although nothing but
the gateway stands against it. -/
theorem speechless_takes_back :
    Acceptable vacant.assets "0x00000000000000000000000000000000000000aa" (bearing 0).body ∧
      (present agreeable 0).1 = .ok () ∧
      (present speechless 0).1 = .error (.argument .noText) ∧
      (present speechless 0).2.assets = vacant.assets := by
  have hagreed : (present agreeable 0).1 = .ok () := by
    rw [present, giving]
    exact call_onAccept_eq_ok.2 ⟨exists_admission_bearing 0, untold_eq_none (fun _ => rfl) _⟩
  refine ⟨acceptable_bearing 0, hagreed, present_speechless, ?_⟩
  rw [present]
  exact assets_of_error present_speechless

end Site
end Interchain
