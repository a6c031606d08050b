/-
Failures of outbound calls that are no refusals.

A refusal carries a code, and all checks of an outbound call refuse.  What is checked is then
written to an envelope, and there a failure without a code can come up: `Escapes` follows it
through the steps of a call, where a check never lets one out and a gateway that answers never
makes one.

The writing and the checks do not agree on one point.  An account number of 31 digits may name
an address beyond 160 bits, which passes for an address in every check but the one of the ledger,
and has no place on the wire.  So a transfer to such a recipient, or by a module at such an
address, fails with the words of the wire format and without a code (`outbound_escapes_iff`), and
nothing else that goes out does.
-/
import Interchain.Proofs.Asset.Guard

namespace Interchain

/-- A submission gets a reply: it is accepted or rejected. -/
def Gateway.Answers {σ : Type} (g : Gateway σ) : Prop :=
  ∀ kind envelope st text, (g.submit kind envelope st).1 ≠ .raised text

def ModuleCall.isOutbound : ModuleCall → Bool
  | .transfer _ _ | .dispatchGet _ _ | .mint _ _ _ => true
  | .onAccept _ _ | .onPostResponse _ _ | .onGetResponse _ _ | .onPostTimeout _ _
  | .onGetTimeout _ _ => false

/-! ## Failures without a code -/

namespace Ledger.Work

variable {ρ α β : Type} {s : Session × ρ} {f : Failure}

/-- The work fails with this, and it is no refusal. -/
def Escapes (w : Work ρ α) (s : Session × ρ) (f : Failure) : Prop :=
  f.code? = none ∧ (w s).1 = .error f

/-- The work fails with refusals only. -/
def IsCoded (w : Work ρ α) : Prop := ∀ s f, ¬ w.Escapes s f

theorem escapes_bind {w : Work ρ α} {k : α → Work ρ β} :
    (w >>= k).Escapes s f ↔ w.Escapes s f ∨ ∃ a t, w s = (.ok a, t) ∧ (k a).Escapes t f := by
  rw [Escapes, Escapes, bind_apply]
  rcases w s with ⟨e | a, t⟩
  · constructor
    · rintro ⟨hcode, h⟩
      cases h
      exact Or.inl ⟨hcode, rfl⟩
    · rintro (⟨hcode, h⟩ | ⟨_, _, h, _⟩)
      · cases h
        exact ⟨hcode, rfl⟩
      · cases h
  · constructor
    · intro h
      exact Or.inr ⟨a, t, rfl, h⟩
    · rintro (⟨_, h⟩ | ⟨_, _, h, hescapes⟩)
      · cases h
      · cases h
        exact hescapes

theorem escapes_ofExcept {r : Except Failure α} {k : α → Work ρ β} :
    (ofExcept r >>= k).Escapes s f ↔
      (f.code? = none ∧ r = .error f) ∨ ∃ a, r = .ok a ∧ (k a).Escapes s f := by
  rw [escapes_bind]
  refine or_congr Iff.rfl ?_
  constructor
  · rintro ⟨a, t, h, hescapes⟩
    obtain ⟨rfl, rfl⟩ := Prod.mk.inj h
    exact ⟨a, rfl, hescapes⟩
  · rintro ⟨a, rfl, hescapes⟩
    exact ⟨a, s, rfl, hescapes⟩

theorem escapes_check {r : Except Cause α} {k : α → Work ρ β} :
    (check r >>= k).Escapes s f ↔ ∃ a, r = .ok a ∧ (k a).Escapes s f := by
  rw [check, escapes_ofExcept]
  constructor
  · rintro (⟨hcode, h⟩ | ⟨a, h, hescapes⟩)
    · cases r with
      | error c =>
        cases h
        cases hcode
      | ok a => cases h
    · exact ⟨a, refuse_eq_ok.1 h, hescapes⟩
  · rintro ⟨a, h, hescapes⟩
    exact Or.inr ⟨a, refuse_eq_ok.2 h, hescapes⟩

theorem escapes_move {g : Ledger → Except Cause Movement} {k : Nat → Work ρ β} :
    (move g >>= k).Escapes s f ↔
      ∃ m, g s.1.ledger = .ok m ∧ (k m.balance).Escapes (s.1.move m, s.2) f := by
  rw [Escapes, bind_apply, move]
  cases g s.1.ledger with
  | error c =>
    refine iff_of_false ?_ ?_
    · rintro ⟨hcode, h⟩
      cases h
      cases hcode
    · rintro ⟨m, h, -⟩
      cases h
  | ok m =>
    constructor
    · intro h
      exact ⟨m, rfl, h⟩
    · rintro ⟨m', h, hescapes⟩
      cases h
      exact hescapes

theorem isCoded_modify (g : ρ → ρ) : IsCoded (modify g) := fun _ _ h => by cases h.2

theorem isCoded_bind {w : Work ρ α} {k : α → Work ρ β} (hw : IsCoded w)
    (hk : ∀ a, IsCoded (k a)) : IsCoded (w >>= k) := by
  intro s f h
  rcases escapes_bind.1 h with h | ⟨a, t, -, h⟩
  · exact hw s f h
  · exact hk a t f h

theorem isCoded_check (r : Except Cause α) : IsCoded (check r : Work ρ α) := by
  intro s f h
  cases r with
  | error c =>
    obtain ⟨hcode, h⟩ := h
    cases h
    cases hcode
  | ok a => cases h.2

theorem isCoded_move (g : Ledger → Except Cause Movement) : IsCoded (move g : Work ρ Nat) := by
  intro s f h
  rw [Escapes, move] at h
  cases hg : g s.1.ledger with
  | error c =>
    rw [hg] at h
    obtain ⟨hcode, h⟩ := h
    cases h
    cases hcode
  | ok m =>
    rw [hg] at h
    cases h.2

end Ledger.Work

/-! ## Arguments that cannot be written -/

namespace Envelope

theorem rereadArgument_of_wide {a : Address} (h : ¬ a.IsNarrow) :
    rereadArgument a = .error (.argument (.address .malformed)) := by
  have hreread : a.reread = .error .malformed := if_neg h
  rw [rereadArgument, hreread]

theorem bytesArgument_of_wide {a : Address} (h : ¬ a.IsNarrow) :
    bytesArgument a.renderLower = .error (.argument .notBytes) := by
  have hodd : a.digits.length = 41 := (Address.length_digits a).trans (if_neg h)
  have hread : Hex.parseEitherMark? a.renderLower = none := by
    rw [Hex.parseEitherMark?, Address.renderLower, String.toList_ofList]
    show Hex.decode? a.digits = none
    cases hdecode : Hex.decode? a.digits with
    | none => rfl
    | some b =>
      obtain ⟨heven, -⟩ := Hex.decode?_eq_some_iff.1 ⟨b, hdecode⟩
      omega
  rw [bytesArgument, hread]

theorem ensureRange_of_le {field : String} {n max : Nat} (h : n ≤ max) :
    ensureRange field max n = .ok n := ensureRange_eq_ok.2 ⟨rfl, h⟩

end Envelope

namespace AssetModule

variable {m : AssetModule} {f : Failure} {fault : ArgumentFault}

theorem bytesArgument_moduleId (hnarrow : m.address.IsNarrow) :
    Envelope.bytesArgument m.moduleId = .ok (Bytes.ofNat 20 m.address.value) := by
  rw [moduleId, Address.renderLower_of_narrow hnarrow]
  exact Envelope.bytesArgument_render _

/-- A transfer passes every check, but it names an address that has no place on the wire: its
recipient, or else its module. -/
def Unwritable (m : AssetModule) (caller : String) (p : TransferParams) (fault : ArgumentFault) :
    Prop :=
  ∃ sender t, Address.parse? caller = some sender ∧ sender.IsNarrow ∧ p.check = .ok t ∧
    t.amount ≤ m.ledger.balance sender ∧
    (¬ t.recipient.IsNarrow ∧ fault = .address .malformed ∨
      t.recipient.IsNarrow ∧ ¬ m.address.IsNarrow ∧ fault = .notBytes)

end AssetModule

/-- Of the arguments of a payload only the recipient can fail, once the others were checked. -/
theorem Payload.ofArguments_eq_error {recipient sender : Address} {amount : Nat} {f : Failure}
    (hsender : sender.IsNarrow) (hamount : amount ≤ maxUint256) :
    Payload.ofArguments (Envelope.rereadArgument recipient) (Envelope.rereadArgument sender)
        amount = .error f ↔ ¬ recipient.IsNarrow ∧ f = .argument (.address .malformed) := by
  by_cases hrecipient : recipient.IsNarrow
  · have hok := Payload.ofArguments_eq_ok.2 ⟨rfl, hrecipient, hsender, hamount⟩
    exact iff_of_false (fun h => by rw [hok] at h; cases h) (fun h => h.1 hrecipient)
  · rw [Payload.ofArguments, Envelope.ensureRange_of_le hamount,
      Envelope.rereadArgument_of_wide hrecipient]
    constructor
    · intro h
      cases h
      exact ⟨hrecipient, rfl⟩
    · rintro ⟨-, rfl⟩
      rfl

/-- Of the fields of a post only the module can fail, once the limits were checked. -/
theorem PostEnvelope.encode_eq_error {m : AssetModule} {dest : String} {payload : Payload}
    {timeout gasLimit : Nat} {f : Failure} (htimeout : timeout ≤ maxUint64)
    (hgas : gasLimit ≤ maxUint64) :
    PostEnvelope.encode dest m.moduleId payload timeout gasLimit = .error f ↔
      ¬ m.address.IsNarrow ∧ f = .argument .notBytes := by
  rw [PostEnvelope.encode, Envelope.ensureRange_of_le htimeout, Envelope.ensureRange_of_le hgas]
  by_cases hmodule : m.address.IsNarrow
  · rw [AssetModule.bytesArgument_moduleId hmodule]
    exact iff_of_false (fun h => by cases h) (fun h => h.1 hmodule)
  · rw [AssetModule.moduleId, Envelope.bytesArgument_of_wide hmodule]
    constructor
    · intro h
      cases h
      exact ⟨hmodule, rfl⟩
    · rintro ⟨-, rfl⟩
      rfl

namespace Site

open Ledger

variable {σ : Type} {g : Gateway σ} {now : Timestamp} {m : AssetModule} {c : ModuleCall}
  {s : Session × Desk σ} {f : Failure}

/-! ## Steps -/

theorem isCoded_measure (k : Metrics → Metrics) : (measure k : Work σ Unit).IsCoded :=
  Work.isCoded_modify _

theorem isCoded_emit (e : AssetEvent) : (emit e : Work σ Unit).IsCoded := Work.isCoded_modify _

theorem isCoded_dispatch (hg : g.Answers) (kind : SubmissionKind) (envelope : String) :
    (dispatch g kind envelope).IsCoded := by
  intro s f h
  rcases Work.escapes_bind.1 h with h | ⟨reply, t, hsubmit, h⟩
  · cases h.2
  · have hreply : (g.submit kind envelope s.2.gateway).1 = reply :=
      Except.ok.inj (congrArg Prod.fst hsubmit)
    cases reply with
    | accepted nonce => exact isCoded_measure _ t f h
    | rejected k reason =>
      have hrejected : Work.IsCoded (measure (·.dispatched kind .rejected) >>= fun _ =>
          .check (.error (.dispatchRejected kind reason)) : Work σ Unit) :=
        Work.isCoded_bind (isCoded_measure _) (fun _ => Work.isCoded_check _)
      exact hrejected t f h
    | raised text => exact hg _ _ _ _ hreply

/-! ## Entry points -/

theorem transfer_escapes (hg : g.Answers) {caller : String} {p : TransferParams}
    (hledger : s.1.ledger = m.ledger) :
    (transfer g now m caller p).Escapes s f ↔
      ∃ fault, m.Unwritable caller p fault ∧ f = .argument fault := by
  -- from the dispatch on there are refusals only
  have hlast : ∀ (envelope : String) (sender : Address) (t : Transfer),
      Work.IsCoded (dispatch g .post envelope >>= fun _ => measure (·.operated .burn) >>= fun _ =>
        emit (m.event now
          (.balanceBurnt sender.render t.recipient.render t.amount t.dest.id))) := by
    intro envelope sender t
    refine Work.isCoded_bind (isCoded_dispatch hg _ _) (fun _ => ?_)
    exact Work.isCoded_bind (isCoded_measure _) (fun _ => isCoded_emit _)
  simp only [transfer, Work.escapes_check, Work.escapes_move, Work.escapes_ofExcept,
    Params.address_eq_ok]
  constructor
  · rintro ⟨sender, hsender, t, ht, _, hholder, move, hmove, h⟩
    obtain ⟨rfl, hnarrow⟩ := holder_eq_ok.1 hholder
    obtain ⟨-, -, ⟨-, hamount⟩, ⟨-, htimeout⟩, -, hgas⟩ := TransferParams.check_eq_ok.1 ht
    rw [hledger] at hmove
    obtain ⟨-, hcovered⟩ := debitAccount_eq_ok.1 hmove
    -- two arguments are left that may not be written: the recipient, and then the module
    rcases h with ⟨-, hpayload⟩ | ⟨payload, hpayload, h⟩
    · obtain ⟨hwide, rfl⟩ := (Payload.ofArguments_eq_error hnarrow hamount).1 hpayload
      exact ⟨_, ⟨_, t, hsender, hnarrow, ht, hcovered, Or.inl ⟨hwide, rfl⟩⟩, rfl⟩
    · obtain ⟨-, hrecipient, -⟩ := Payload.ofArguments_eq_ok.1 hpayload
      rcases h with ⟨-, hencode⟩ | ⟨envelope, -, h⟩
      · obtain ⟨hwide, rfl⟩ := (PostEnvelope.encode_eq_error htimeout hgas).1 hencode
        exact ⟨_, ⟨_, t, hsender, hnarrow, ht, hcovered, Or.inr ⟨hrecipient, hwide, rfl⟩⟩, rfl⟩
      · exact (hlast envelope _ t _ _ h).elim
  · rintro ⟨fault, ⟨sender, t, hsender, hnarrow, ht, hcovered, hwide⟩, rfl⟩
    obtain ⟨-, -, ⟨-, hamount⟩, ⟨-, htimeout⟩, -, hgas⟩ := TransferParams.check_eq_ok.1 ht
    refine ⟨sender, hsender, t, ht, sender, holder_eq_ok.2 ⟨rfl, hnarrow⟩, _,
      hledger ▸ debitAccount_eq_ok.2 ⟨rfl, hcovered⟩, ?_⟩
    rcases hwide with ⟨hwide, rfl⟩ | ⟨hrecipient, hwide, rfl⟩
    · exact Or.inl ⟨rfl, (Payload.ofArguments_eq_error hnarrow hamount).2 ⟨hwide, rfl⟩⟩
    · refine Or.inr ⟨_, Payload.ofArguments_eq_ok.2 ⟨rfl, hrecipient, hnarrow, hamount⟩, ?_⟩
      exact Or.inl ⟨rfl, (PostEnvelope.encode_eq_error htimeout hgas).2 ⟨hwide, rfl⟩⟩

theorem isCoded_dispatchGet (hg : g.Answers) (now : Timestamp) (m : AssetModule) (caller : String)
    (p : GetParams) : (dispatchGet g now m caller p).IsCoded := by
  intro s f h
  simp only [dispatchGet, Work.escapes_check, Work.escapes_ofExcept] at h
  obtain ⟨_, -, q, hq, ⟨-, hencode⟩ | ⟨envelope, -, h⟩⟩ := h
  · obtain ⟨envelope, hok⟩ := GetEnvelope.exists_encode_of_check hq
    rw [hencode] at hok
    cases hok
  · exact Work.isCoded_bind (isCoded_dispatch hg _ _) (fun _ => isCoded_emit _) _ _ h

theorem isCoded_mint (now : Timestamp) (m : AssetModule) (caller account : String) (amount : Int) :
    (mint now m caller account amount : Work σ Unit).IsCoded := by
  refine Work.isCoded_bind (Work.isCoded_check _) (fun _ => ?_)
  refine Work.isCoded_bind (Work.isCoded_check _) (fun _ => ?_)
  refine Work.isCoded_bind (Work.isCoded_check _) (fun n => ?_)
  refine Work.isCoded_bind (Work.isCoded_check _) (fun holder => ?_)
  have hminted : (mintTo .mint holder n : Work σ Unit).IsCoded :=
    Work.isCoded_bind (Work.isCoded_move _) (fun _ => isCoded_measure _)
  exact Work.isCoded_bind hminted (fun _ => isCoded_emit _)

/-! ## Calls -/

/-- A failure without a code gets out of a call as it gets out of its work. -/
theorem call_escapes (g : Gateway σ) (now : Timestamp) (c : ModuleCall) (site : Site σ) :
    (site.call g now c).1 = .error f ∧ f.code? = none ↔
      (workOf g now site.assets c).Escapes
        ((Session.start site.assets.ledger).opened, ⟨[], site.gateway, site.metrics⟩) f := by
  rw [fst_call, Work.Escapes]
  rcases workOf g now site.assets c
    ((Session.start site.assets.ledger).opened, ⟨[], site.gateway, site.metrics⟩)
    with ⟨e | _, t, d⟩
  · have hbind : e.code? = none → e.bind c.context = e := by
      intro hcode
      rcases e with ⟨cause, context⟩ | fault | text
      · cases hcode
      · rfl
      · rfl
    constructor
    · rintro ⟨h, hcode⟩
      cases h
      rw [Failure.code?_bind] at hcode
      rw [hbind hcode]
      exact ⟨hcode, rfl⟩
    · rintro ⟨hcode, h⟩
      cases h
      exact ⟨congrArg Except.error (hbind hcode), hcode⟩
  · refine iff_of_false ?_ ?_
    · rintro ⟨h, -⟩
      cases h
    · rintro ⟨-, h⟩
      cases h

/-- Over a gateway that answers, a failure of an outbound call has a code, unless it is a transfer
that passes every check and names an address beyond 160 bits.  Such a transfer never returns, and
its failure is the one of the wire format. -/
theorem outbound_escapes_iff (hg : g.Answers) (now : Timestamp) (site : Site σ)
    (hc : c.isOutbound = true) :
    (site.call g now c).1 = .error f ∧ f.code? = none ↔
      ∃ caller p fault, c = .transfer caller p ∧ site.assets.Unwritable caller p fault ∧
        f = .argument fault := by
  rw [call_escapes]
  cases c with
  | transfer caller p =>
    have hescapes : (transfer g now site.assets caller p).Escapes
        ((Session.start site.assets.ledger).opened, ⟨[], site.gateway, site.metrics⟩) f ↔
          ∃ fault, site.assets.Unwritable caller p fault ∧ f = .argument fault :=
      transfer_escapes hg rfl
    refine hescapes.trans ?_
    constructor
    · rintro ⟨fault, hunwritable, hf⟩
      exact ⟨caller, p, fault, rfl, hunwritable, hf⟩
    · rintro ⟨_, _, fault, h, hunwritable, hf⟩
      cases h
      exact ⟨fault, hunwritable, hf⟩
  | dispatchGet caller p =>
    refine iff_of_false (fun h => isCoded_dispatchGet hg now site.assets caller p _ _ h) ?_
    rintro ⟨_, _, _, h, -⟩
    cases h
  | mint caller account n =>
    refine iff_of_false (fun h => isCoded_mint now site.assets caller account n _ _ h) ?_
    rintro ⟨_, _, _, h, -⟩
    cases h
  | onAccept | onPostResponse | onGetResponse | onPostTimeout | onGetTimeout => cases hc

/-! ## An address beyond 160 bits -/

/-- The greatest account number of 31 digits. -/
def wideText : String := "XE54ZZZZZZZZZZZZZZZZZZZZZZZZZZZZZZZ"

def wide : Address := ⟨36 ^ 31 - 1, by decide⟩

theorem parse?_wideText : Address.parse? wideText = some wide := by decide

def unfunded (a : Address) : AssetModule :=
  ⟨.parachain .polkadot 2000, .small 170, a, .empty, []⟩

theorem ofConfig_unfunded {t : String} {a : Address} (h : Address.parse? t = some a) :
    AssetModule.ofConfig ⟨"POLKADOT-2000", "0x00000000000000000000000000000000000000aa", t⟩
      .empty = .ok (unfunded a) := by
  have hchain : Chain.parse "POLKADOT-2000" = .ok (.parachain .polkadot 2000) := by rfl
  have hhost : Address.parse? "0x00000000000000000000000000000000000000aa" = some (.small 170) := by
    decide
  exact AssetModule.ofConfig_eq_ok.2 ⟨hchain, hhost, h, rfl, rfl⟩

def accepting : Gateway Nat := ⟨fun _ _ n => (.accepted n, n + 1)⟩

theorem answers_accepting : accepting.Answers := fun _ _ _ _ h => by cases h

def sendNothing (recipient : String) : TransferParams := ⟨recipient, "POLKADOT-2001", 0, 0, 0⟩

theorem check_sendNothing {recipient : String} {a : Address}
    (h : Address.parse? recipient = some a) :
    (sendNothing recipient).check = .ok ⟨a, .parachain .polkadot 2001, 0, 0, 0⟩ := by
  have hdest : Chain.parse "POLKADOT-2001" = .ok (.parachain .polkadot 2001) := by rfl
  exact TransferParams.check_eq_ok.2
    ⟨h, hdest, ⟨rfl, Nat.zero_le _⟩, ⟨rfl, Nat.zero_le _⟩, rfl, Nat.zero_le _⟩

/-- A module at such an address can send nothing, not even nothing. -/
theorem outbound_escapes_iff_wide :
    AssetModule.ofConfig ⟨"POLKADOT-2000", "0x00000000000000000000000000000000000000aa", wideText⟩
        .empty = .ok (unfunded wide) ∧ accepting.Answers ∧
      (call accepting ⟨0⟩ (.transfer "0x0000000000000000000000000000000000000001"
        (sendNothing "0x0000000000000000000000000000000000000002"))
          ⟨unfunded wide, 0, .zero⟩).1 = .error (.argument .notBytes) := by
  have hrecipient : Address.parse? "0x0000000000000000000000000000000000000002" =
      some (.small 2) := by decide
  have hunwritable : (unfunded wide).Unwritable "0x0000000000000000000000000000000000000001"
      (sendNothing "0x0000000000000000000000000000000000000002") .notBytes :=
    ⟨.small 1, _, by decide, by decide, check_sendNothing hrecipient, Nat.zero_le _,
      Or.inr ⟨by decide, by decide, rfl⟩⟩
  have hescapes := (outbound_escapes_iff answers_accepting ⟨0⟩ ⟨unfunded wide, 0, .zero⟩ rfl).2
    ⟨_, _, _, rfl, hunwritable, rfl⟩
  exact ⟨ofConfig_unfunded parse?_wideText, answers_accepting, hescapes.1⟩

/-- A transfer to such an address is taken for one to an account and then fails without a code. -/
theorem transfer_to_wide_escapes :
    AssetModule.ofConfig ⟨"POLKADOT-2000", "0x00000000000000000000000000000000000000aa",
        "0x0000000000000000000000000000000000000002"⟩ .empty = .ok (unfunded (.small 2)) ∧
      accepting.Answers ∧ ∃ f,
        (call accepting ⟨0⟩ (.transfer "0x0000000000000000000000000000000000000001"
          (sendNothing wideText)) ⟨unfunded (.small 2), 0, .zero⟩).1 = .error f ∧
        f.code? = none := by
  have hunwritable : (unfunded (.small 2)).Unwritable
      "0x0000000000000000000000000000000000000001" (sendNothing wideText) (.address .malformed) :=
    ⟨.small 1, _, by decide, by decide, check_sendNothing parse?_wideText, Nat.zero_le _,
      Or.inl ⟨by decide, rfl⟩⟩
  refine ⟨ofConfig_unfunded (by decide), answers_accepting,
    .argument (.address .malformed), ?_⟩
  rw [call_escapes]
  exact (transfer_escapes answers_accepting rfl).2 ⟨_, hunwritable, rfl⟩

end Site
end Interchain
