/-
Calls that cannot fail.

`Commit` says what has to hold for a call to commit.  Nothing else is asked of it: a call
for which that holds returns, and the module, the gateway and the outbox are those of the
commit (`call_of_commit`).  Together with `call_ok` this makes `Commit` the exact meaning
of success, and a caller that wants to know that a call goes through has to look no
further.
-/
import Interchain.Proofs.Asset.Call
import Interchain.Proofs.Envelope.Exact

namespace Interchain
namespace Site

open Ledger

variable {σ : Type} {g : Gateway σ} {now : Timestamp} {m : AssetModule} {st st' : σ}
  {c : ModuleCall} {l : Ledger} {body : EventBody}

/-! ## Steps -/

section

variable {s : Session × Desk σ} {Q : Unit → Session × Desk σ → Prop} {E : Session × Desk σ → Prop}

theorem sat_dispatch_accepted {kind : SubmissionKind} {envelope : String} {nonce : Int}
    (h : g.submit kind envelope s.2.gateway = (.accepted nonce, st'))
    (hQ : ∀ metrics, Q () (s.1, ⟨s.2.pending, st', metrics⟩)) :
    (dispatch g kind envelope).Sat s Q E := by
  refine sat_dispatch (fun reply st₁ _ hsubmit hreply _ => ?_) (fun nonce₁ st₁ hsubmit => ?_)
  · rw [h] at hsubmit
    cases hsubmit
    cases hreply
  · rw [h] at hsubmit
    cases hsubmit
    exact hQ _

theorem sat_mintTo_ok {o : LedgerOperation} {a : Address} {n : Nat} {move : Movement}
    (h : s.1.ledger.creditAccount a n = .ok move)
    (hQ : ∀ metrics, Q () (s.1.move move, ⟨s.2.pending, s.2.gateway, metrics⟩)) :
    (mintTo o a n).Sat s Q E := by
  rw [mintTo, Work.sat_bind]
  exact Work.sat_move_ok h (hQ _)

end

/-! ## Entry points -/

/-- The work of a call that meets what a commit asks for does not fail. -/
theorem sat_of_commit (h : Commit g m st c l body st') (metrics : Metrics)
    {E : Session × Desk σ → Prop} :
    (workOf g now m c).Sat ((Session.start m.ledger).opened, ⟨[], st, metrics⟩)
      (fun _ s => s.1.ledger = l ∧ s.2.pending = [m.event now body] ∧ s.2.gateway = st') E := by
  cases h with
  | @transfer _ _ _ t _ _ _ _ hsender hcheck hnarrow hrecipient hmove hencode hsubmit =>
    simp only [workOf, transfer, Work.sat_bind]
    refine Work.sat_check_ok (Params.address_eq_ok.2 hsender) ?_
    refine Work.sat_check_ok hcheck ?_
    refine Work.sat_check_ok (holder_eq_ok.2 ⟨rfl, hnarrow⟩) ?_
    refine Work.sat_move_ok hmove ?_
    have hamount := TransferParams.amount_le_of_check hcheck
    refine Work.sat_ofExcept_ok
      (Payload.ofArguments_eq_ok.2 ⟨rfl, hrecipient, hnarrow, hamount⟩) ?_
    refine Work.sat_ofExcept_ok hencode ?_
    exact sat_dispatch_accepted hsubmit (fun _ => ⟨rfl, rfl, rfl⟩)
  | dispatchGet hcaller hcheck hencode hsubmit =>
    simp only [workOf, dispatchGet, Work.sat_bind]
    refine Work.sat_check_ok (Params.address_eq_ok.2 hcaller) ?_
    refine Work.sat_check_ok hcheck ?_
    refine Work.sat_ofExcept_ok hencode ?_
    exact sat_dispatch_accepted hsubmit (fun _ => ⟨rfl, rfl, rfl⟩)
  | mint hhost haccount hamount hnarrow hmove =>
    simp only [workOf, mint, Work.sat_bind]
    refine Work.sat_check_ok hhost ?_
    refine Work.sat_check_ok (Params.address_eq_ok.2 haccount) ?_
    refine Work.sat_check_ok hamount ?_
    refine Work.sat_check_ok (holder_eq_ok.2 ⟨rfl, hnarrow⟩) ?_
    exact sat_mintTo_ok hmove (fun _ => ⟨rfl, rfl, rfl⟩)
  | onAccept hhost hdecode hmove huntold =>
    simp only [workOf, onAccept, Work.sat_bind]
    refine Work.sat_check_ok hhost ?_
    refine Work.sat_check_ok hdecode ?_
    refine sat_mintTo_ok hmove (fun _ => ?_)
    refine sat_acknowledge (fun fault h => ?_) (fun _ => ⟨rfl, rfl, rfl⟩)
    cases huntold.symm.trans h
  | onPostResponse hhost hdecode =>
    simp only [workOf, onPostResponse, Work.sat_bind]
    refine Work.sat_check_ok hhost ?_
    exact Work.sat_check_ok hdecode ⟨rfl, rfl, rfl⟩
  | onGetResponse hhost hvalues =>
    simp only [workOf, onGetResponse, Work.sat_bind]
    refine Work.sat_check_ok hhost ?_
    exact Work.sat_check_ok hvalues ⟨rfl, rfl, rfl⟩
  | onPostTimeout hhost hdecode hmove =>
    simp only [workOf, onPostTimeout, Work.sat_bind]
    refine Work.sat_check_ok hhost ?_
    refine Work.sat_check_ok hdecode ?_
    exact sat_mintTo_ok hmove (fun _ => ⟨rfl, rfl, rfl⟩)
  | onGetTimeout hhost hkeys =>
    simp only [workOf, onGetTimeout, Work.sat_bind]
    refine Work.sat_check_ok hhost ?_
    exact Work.sat_check_ok hkeys ⟨rfl, rfl, rfl⟩

/-! ## Calls -/

/-- A module at an address of 20 bytes has words for any request that can be written. -/
theorem acknowledgement_of_writable {r : PostRequest} (hnarrow : m.address.IsNarrow)
    (hr : r.IsWritable) : ∃ envelope, acknowledgement m r = .ok envelope ∧
      ResponseEnvelope.encode r (Acknowledgement.encode m.address) = .ok envelope := by
  obtain ⟨envelope, hencode⟩ := ResponseEnvelope.exists_encode hr (Hex.isByteText_render
    (Abi.encode (.tuple Acknowledgement.layout) (Acknowledgement.tag, m.address, ())))
  exact ⟨envelope, bind_eq_ok.2 ⟨_, Envelope.rereadArgument_eq_ok.2 ⟨rfl, hnarrow⟩, hencode⟩,
    hencode⟩

/-- A call for which all holds that a commit asks for returns, and is that commit. -/
theorem call_of_commit (site : Site σ) (now : Timestamp)
    (h : Commit g site.assets site.gateway c l body st') :
    ∃ metrics, site.call g now c = (.ok (), ⟨{ site.assets with
      ledger := l, outbox := site.assets.outbox ++ [site.assets.event now body] },
        st', metrics⟩) := by
  have hsat : (workOf g now site.assets c).atomically.Sat
      (.start site.assets.ledger, ⟨[], site.gateway, site.metrics⟩)
      (fun _ s => s.1.ledger = l ∧ s.2.pending = [site.assets.event now body] ∧
        s.2.gateway = st')
      (fun s => s.1 = .start site.assets.ledger ∧ False) := by
    refine Work.sat_atomically (E := fun _ => False) ?_
    exact sat_of_commit h site.metrics
  rw [call, execute]
  rcases hw : (workOf g now site.assets c).atomically
    (.start site.assets.ledger, ⟨[], site.gateway, site.metrics⟩) with ⟨_ | _, t, d⟩
  · exact (hsat.of_error hw).2.elim
  · obtain ⟨hledger, hpending, hgateway⟩ := hsat.of_ok hw
    simp only at hledger hpending hgateway
    subst hledger hgateway
    rw [← hpending]
    exact ⟨_, rfl⟩

end Site
end Interchain
