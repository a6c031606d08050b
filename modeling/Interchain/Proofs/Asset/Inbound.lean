/-
Failures of inbound calls.

A call that answers a request fails with refusals, each bound to that request, and but for one
way with nothing else (`inbound_refused`).  There are three places where something else could
come up.  Reading a body makes no other failure than that it cannot be decoded, however it is
spelled.  What is credited was read from a body, so that the account fits the ledger and only
the sum may not.  And what goes wrong with an acknowledgement stays where it is, be it that the
request cannot be written or that the gateway fails; that is, unless to report it fails too
(`Site.raises_acknowledge`).
-/
import Interchain.Proofs.Asset.Acceptance
import Interchain.Proofs.Asset.Outbound

namespace Interchain

/-- A call that is not outbound is for the host, and answers a request. -/
theorem ModuleCall.of_inbound {c : ModuleCall} (hc : c.isOutbound = false) :
    ∃ caller r, c.hostCaller? = some caller ∧ c.context = some r := by
  cases c with
  | transfer | dispatchGet | mint => cases hc
  | onAccept | onPostResponse | onGetResponse | onPostTimeout | onGetTimeout =>
    exact ⟨_, _, rfl, rfl⟩

theorem ModuleCall.of_entry_onAccept {c : ModuleCall} (h : c.entry = .onAccept) :
    ∃ caller r, c = .onAccept caller r := by
  cases c with
  | onAccept caller r => exact ⟨caller, r, rfl⟩
  | transfer | dispatchGet | mint | onPostResponse | onGetResponse | onPostTimeout
  | onGetTimeout => cases h

namespace Site

variable {σ : Type} {c : ModuleCall}

/-- Whatever the module holds, whatever its gateway does and whatever the request says, a call
that answers a request returns or is refused, with one exception.  The refusal is bound to the
source, the destination and the nonce of that request.  It says that the caller is not
authorized, or else it has one of the codes of the entry point: a body that cannot be decoded,
an amount that does not fit, an answer that lacks a value or a key.  The exception is a request
that could be accepted, and a gateway that raises at its acknowledgement what cannot be reported:
then the fault of the report leaves the call, with no code and bound to nothing. -/
theorem inbound_refused (g : Gateway σ) (now : Timestamp) (site : Site σ)
    (hc : c.isOutbound = false) {f : Failure} (hcall : (site.call g now c).1 = .error f) :
    (∃ r cause, c.context = some r ∧ f = .refused ⟨cause, some r⟩ ∧
      (cause.code = .unauthorized ∨ cause.code ∈ c.refusals)) ∨
    ∃ caller r fault, c = .onAccept caller r ∧ Acceptable site.assets caller r.body ∧
      untold g site.assets r site.gateway = some fault ∧ f = .argument fault := by
  obtain ⟨caller, r, hcaller, hr⟩ := ModuleCall.of_inbound hc
  by_cases hhost : site.assets.host.IsSpelledBy caller
  · obtain ⟨cause, rfl, hcode⟩ | ⟨hentry, fault, rfl⟩ :=
      failure_of_host g now hcaller site hhost hcall
    · exact Or.inl ⟨r, cause, hr, by rw [hr], Or.inr hcode⟩
    · obtain ⟨caller', request, rfl⟩ := ModuleCall.of_entry_onAccept hentry
      obtain ⟨⟨q, hq⟩, huntold⟩ := call_onAccept_eq_fault.1 hcall
      exact Or.inr ⟨_, _, fault, rfl, acceptable_of_admission hq, huntold, rfl⟩
  · have hrefused := (turnsAway_stranger g now hcaller site hhost).refused
    rw [hcall, hr, Except.error.injEq] at hrefused
    exact Or.inl ⟨r, .notHost caller, hr, hrefused, Or.inl rfl⟩

/-- The host times out a post with nothing in its body, before a gateway that always fails. -/
theorem inbound_refused_hollow :
    (watched.call failing ⟨0⟩
        (.onPostTimeout "0x00000000000000000000000000000000000000aa" hollow)).1 =
      .error (.refused ⟨.decode .payloadLength, some ⟨"", "", -1⟩⟩) ∧
    ∃ r cause, (ModuleCall.onPostTimeout "0x00000000000000000000000000000000000000aa"
        hollow).context = some r ∧
      Failure.refused ⟨.decode .payloadLength, some ⟨"", "", -1⟩⟩ = .refused ⟨cause, some r⟩ ∧
      (cause.code = .unauthorized ∨ cause.code ∈ [.decodeError, .overflow]) := by
  have hcall : (watched.call failing ⟨0⟩
      (.onPostTimeout "0x00000000000000000000000000000000000000aa" hollow)).1 =
        .error (.refused ⟨.decode .payloadLength, some ⟨"", "", -1⟩⟩) := by rfl
  obtain hrefused | ⟨_, _, _, haccept, -⟩ := inbound_refused failing ⟨0⟩ watched rfl hcall
  · exact ⟨hcall, hrefused⟩
  · cases haccept

/-- Before a gateway without words a request that could be accepted fails with no code. -/
theorem speechless_escapes_code : (giving 0).isOutbound = false ∧
    ∃ f, (vacant.call speechless ⟨0⟩ (giving 0)).1 = .error f ∧ ∀ e, f ≠ .refused e :=
  ⟨rfl, _, present_speechless, fun _ h => nomatch h⟩

end Site
end Interchain
