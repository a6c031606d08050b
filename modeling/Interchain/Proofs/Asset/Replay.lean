/-
The committed events of a module rebuild its ledger.

`Ledger.replay` debits for every burn and credits for every mint, by the texts and
amounts that the events carry, and passes over all other events.  Each commit moves the
ledger as the replay of its event does (`Commit.replay_eq_ok`), a call that fails commits
nothing, and taking events away takes none from the history.  So at the end of any run
the history, replayed, gives the ledger of the module (`replay_run`).
-/
import Interchain.Proofs.Asset.Call
import Interchain.Proofs.Envelope.RoundTrip

namespace Interchain

namespace Ledger

def replayEvent (l : Ledger) : EventBody → Except Cause Ledger
  | .balanceBurnt sender _ amount _ => (l.debit sender amount).map l.apply
  | .balanceMinted _ _ beneficiary amount _ => (l.credit beneficiary amount).map l.apply
  | .getDispatched _ _ _ | .responseReceived _ _ _ _ | .timeoutReceived _ _ _ => .ok l

def replay (l : Ledger) : List AssetEvent → Except Cause Ledger
  | [] => .ok l
  | e :: es => l.replayEvent e.body >>= fun l => l.replay es

theorem replay_append {l m : Ledger} {es : List AssetEvent} (h : l.replay es = .ok m)
    (fs : List AssetEvent) : l.replay (es ++ fs) = m.replay fs := by
  induction es generalizing l with
  | nil =>
    cases h
    rfl
  | cons e es ih =>
    obtain ⟨k, hk, hes⟩ := bind_eq_ok.1 h
    rw [List.cons_append, replay, hk]
    exact ih hes

theorem replay_concat {l m k : Ledger} {es : List AssetEvent} {e : AssetEvent}
    (h : l.replay es = .ok m) (he : m.replayEvent e.body = .ok k) :
    l.replay (es ++ [e]) = .ok k := by
  rw [replay_append h, replay, he]
  rfl

theorem debit_render {l : Ledger} {a : Address} {n : Nat} {m : Movement} (ha : a.IsNarrow)
    (hn : n ≤ maxUint256) (h : l.debitAccount a n = .ok m) : l.debit a.render n = .ok m :=
  debit_eq_ok.2 ⟨n, amount_eq_ok.2 ⟨rfl, hn⟩, a, account_render_of_narrow ha, h⟩

theorem credit_render {l : Ledger} {a : Address} {n : Nat} {m : Movement} (ha : a.IsNarrow)
    (hn : n ≤ maxUint256) (h : l.creditAccount a n = .ok m) : l.credit a.render n = .ok m :=
  credit_eq_ok.2 ⟨n, amount_eq_ok.2 ⟨rfl, hn⟩, a, account_render_of_narrow ha, h⟩

end Ledger

namespace Site

open Ledger

variable {σ : Type} {g : Gateway σ} {now : Timestamp} {m : AssetModule} {st st' : σ}
  {c : ModuleCall} {l : Ledger} {body : EventBody}

/-- A commit does to the ledger what its event says. -/
theorem Commit.replay_eq_ok (h : Commit g m st c l body st') :
    m.ledger.replayEvent body = .ok l := by
  cases h with
  | transfer _ hcheck hsender _ hmove _ _ =>
    have hamount := TransferParams.amount_le_of_check hcheck
    rw [replayEvent, debit_render hsender hamount hmove]
    rfl
  | mint _ _ hamount hnarrow hmove =>
    obtain ⟨rfl, hle⟩ := amount_eq_ok.1 hamount
    rw [replayEvent, credit_render hnarrow hle hmove]
    rfl
  | onAccept _ hdecode hmove =>
    have hfits := Payload.fits_of_decode hdecode
    rw [replayEvent, credit_render hfits.recipient hfits.amount hmove]
    rfl
  | onPostTimeout _ hdecode hmove =>
    have hfits := Payload.fits_of_decode hdecode
    rw [replayEvent, credit_render hfits.sender hfits.amount hmove]
    rfl
  | dispatchGet | onPostResponse | onGetResponse | onGetTimeout => rfl

/-! ## Runs -/

inductive Action (σ : Type)
  | call (now : Timestamp) (c : ModuleCall)
  | drain
  | discard (count : Int)
  | reconfigure (change : σ → σ)

/-- A module with the events that were taken away from it, the oldest first. -/
structure History (σ : Type) where
  site : Site σ
  taken : List AssetEvent

def History.committed (h : History σ) : List AssetEvent := h.taken ++ h.site.assets.outbox

def History.act (g : Gateway σ) (h : History σ) : Action σ → History σ
  | .call now c => ⟨(h.site.call g now c).2, h.taken⟩
  | .drain =>
    let (events, m) := h.site.assets.drainEvents
    ⟨{ h.site with assets := m }, h.taken ++ events⟩
  | .discard count =>
    ⟨{ h.site with assets := h.site.assets.discardEvents count },
      h.taken ++ h.site.assets.outbox.take count.toNat⟩
  | .reconfigure change => ⟨{ h.site with gateway := change h.site.gateway }, h.taken⟩

def History.run (g : Gateway σ) (h : History σ) (actions : List (Action σ)) : History σ :=
  actions.foldl (History.act g) h

def History.Replays (l₀ : Ledger) (h : History σ) : Prop :=
  l₀.replay h.committed = .ok h.site.assets.ledger

theorem History.Replays.act {l₀ : Ledger} {h : History σ} (hr : h.Replays l₀) (g : Gateway σ)
    (a : Action σ) : (h.act g a).Replays l₀ := by
  cases a with
  | call now c =>
    rcases hcall : h.site.call g now c with ⟨_ | _, site'⟩
    · have hassets := (call_error hcall).1
      rw [History.act, hcall, Replays, committed]
      rw [hassets]
      exact hr
    · obtain ⟨l, body, hcommit, hassets⟩ := call_ok hcall
      rw [History.act, hcall, Replays, committed]
      rw [hassets]
      rw [← List.append_assoc]
      exact replay_concat hr hcommit.replay_eq_ok
  | drain =>
    show l₀.replay ((h.taken ++ h.site.assets.outbox) ++ []) = _
    rw [List.append_nil]
    exact hr
  | discard count =>
    show l₀.replay ((h.taken ++ h.site.assets.outbox.take count.toNat) ++
      h.site.assets.outbox.drop count.toNat) = _
    rw [List.append_assoc, List.take_append_drop]
    exact hr
  | reconfigure change => exact hr

theorem History.Replays.run {l₀ : Ledger} {h : History σ} (hr : h.Replays l₀) (g : Gateway σ)
    (actions : List (Action σ)) : (h.run g actions).Replays l₀ := by
  induction actions generalizing h with
  | nil => exact hr
  | cons a actions ih => exact ih (hr.act g a)

/-- However a module is used from an empty ledger on, and whatever its gateway does, the
events it committed, replayed on an empty ledger, give its ledger: supply, balances and
the order of accounts. -/
theorem replay_run (g : Gateway σ) (chain : Chain) (host address : Address) (st : σ)
    (metrics : Metrics) (actions : List (Action σ)) :
    let start : Site σ := ⟨⟨chain, host, address, .empty, []⟩, st, metrics⟩
    let h := History.run g ⟨start, []⟩ actions
    Ledger.replay .empty h.committed = .ok h.site.assets.ledger :=
  History.Replays.run (h := ⟨⟨⟨chain, host, address, .empty, []⟩, st, metrics⟩, []⟩) rfl g actions

end Site
end Interchain
