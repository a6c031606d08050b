/-
What anyone can ask of a host.

A host takes a turn when one of its operations is asked for, or when one of its modules is
called, by whomever (`Turn`).  So what is reached takes in every run and every mix of runs with
calls that no host makes.  Whatever host is reached is sound (`Reaches.sound`) and keeps
numbered requests (`Reaches.numbered`).
-/
import Interchain.Proofs.Host.Requests

namespace Interchain

open Relation (ReflTransGen)

namespace Host

variable {h h' : Host} {id : String} {now : Timestamp}

/-- One thing that is asked of a host: an operation of its own, or a call of one of its
modules by anyone. -/
inductive Turn (h : Host) : Host → Prop
  | step (now : Timestamp) (a : Action) : Turn h (h.step now a).2
  | call (id : String) (now : Timestamp) (c : ModuleCall) : Turn h (h.call id now c).2

abbrev Reaches : Host → Host → Prop := ReflTransGen Turn

theorem reaches_run (h : Host) (actions : List (Timestamp × Action)) :
    h.Reaches (h.run actions) := by
  induction actions generalizing h with
  | nil => exact .refl
  | cons e rest ih => exact .head (.step e.1 e.2) (ih _)

theorem Turn.moves (ht : h.Turn h') : h.Moves h' := by
  cases ht with
  | step now a => exact step_moves h now a
  | call id now c => exact call_moves h id now c

theorem Kept.reaches {P : Host → Prop} (hP : Kept P) (h₀ : P h) (hreach : h.Reaches h') : P h' := by
  induction hreach with
  | refl => exact h₀
  | tail _ hturn ih => exact hP.moves ih hturn.moves

theorem Reaches.numbered (hx : h.exchange.Numbered) (hreach : h.Reaches h') :
    h'.exchange.Numbered := numbered_kept.reaches hx hreach

theorem Reaches.served (hv : h.Served) (hreach : h.Reaches h') : h'.Served :=
  served_kept.reaches hv hreach

theorem Sound.credited (hs : h.Sound) {m : AssetModule} (hm : m ∈ h.modules) {a : Address}
    {n : Nat} {move : Ledger.Movement} (hmove : m.ledger.creditAccount a n = .ok move)
    {x : Exchange} (hx : x.outline = h.exchange.outline)
    (hal : (h.settle m (m.ledger.apply move) x).Alike h') : h'.Sound := by
  refine Sound.alike ?_ hal
  exact hs.settle hm ((hs.ledgers m hm).raise hmove) (hx ▸ hs.exchange) (by rw [hx])

/-- No call of a module, by whomever, makes a host unsound. -/
theorem Sound.call (hs : h.Sound) (id : String) (now : Timestamp) (c : ModuleCall) :
    (h.call id now c).2.Sound := by
  rcases hcall : h.call id now c with ⟨_ | _, h'⟩
  · exact hs.alike (call_error hs hcall)
  · cases c with
    | transfer caller p => exact (call_transfer hs hcall).1
    | dispatchGet caller p => exact (call_dispatchGet hs hcall).1
    | mint caller account n =>
      obtain ⟨m, a, -, -, hsound, -⟩ := call_mint hs hcall
      exact hsound
    | onAccept caller r =>
      obtain ⟨m, hm, l, body, x, hcommit, hal⟩ := call_ok hcall
      cases hcommit with
      | onAccept _ _ hmove _ =>
        exact hs.credited (moduleOf_eq_ok hm).1 hmove (outline_acknowledged _ _ _ _) hal
    | onPostTimeout caller r =>
      obtain ⟨m, hm, l, body, x, hcommit, hal⟩ := call_ok hcall
      cases hcommit with
      | onPostTimeout _ _ hmove => exact hs.credited (moduleOf_eq_ok hm).1 hmove rfl hal
    | onPostResponse caller p => exact hs.alike (call_answer hs (Or.inl ⟨p, rfl⟩) hcall)
    | onGetResponse caller p => exact hs.alike (call_answer hs (Or.inr (Or.inl ⟨p, rfl⟩)) hcall)
    | onGetTimeout caller p => exact hs.alike (call_answer hs (Or.inr (Or.inr ⟨p, rfl⟩)) hcall)

theorem Reaches.sound (hs : h.Sound) (hreach : h.Reaches h') : h'.Sound := by
  induction hreach with
  | refl => exact hs
  | tail _ hturn ih =>
    cases hturn with
    | step now a => exact (step_evolves ih now a).sound
    | call id now c => exact ih.call id now c

end Host
end Interchain
