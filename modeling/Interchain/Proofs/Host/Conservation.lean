/-
Nothing is minted that was not burnt or granted.

In circulation are the supplies of all chains and the amounts of the posts in flight.
`circulatingSupply_step` says that after any run this is a number, and that no operation
changes it but by what it issues on success.  `balance_run` says the same of one account
of one chain: it has what it was granted, less every post it sent, with every answered
post to it and every post of its own that timed out.
-/
import Interchain.Proofs.Host.Run

namespace Interchain
namespace Host

variable {h : Host}

/-! ## Circulation -/

theorem ledgerSupply_eq (ms : List AssetModule) :
    ledgerSupply ms = Table.sum Ledger.supply (ms.map (fun m => (m.chain.id, m.ledger))) := by
  induction ms with
  | nil => rfl
  | cons m ms ih => rw [ledgerSupply, ih, List.map_cons, Table.sum]

theorem inFlightAmount_eq {ps : List TrackedPost}
    (hps : ∀ p ∈ ps, ∃ q, Payload.decode p.request.body = .ok q) :
    inFlightAmount ps =
      .ok (Table.sum Transit.inFlight
        (ps.map (fun p => (p.key, transitOf (p.request, p.status))))) := by
  induction ps with
  | nil => rfl
  | cons p ps ih =>
    have hrest := ih (fun p hp => hps p (List.mem_cons_of_mem _ hp))
    rw [inFlightAmount, List.map_cons, Table.sum, hrest]
    split
    · next hstatus =>
      obtain ⟨q, hq⟩ := hps p List.mem_cons_self
      have hamount : (transitOf (p.request, p.status)).amount = q.amount := by
        rw [Transit.amount, transitOf, hq]
        rfl
      have hflight : (transitOf (p.request, p.status)).inFlight = q.amount :=
        (if_pos hstatus).trans hamount
      rw [hq, hflight]
      rfl
    · next hstatus =>
      have hflight : (transitOf (p.request, p.status)).inFlight = 0 := if_neg hstatus
      rw [hflight, Nat.zero_add]

theorem Sound.decodes (hs : h.Sound) {p : TrackedPost} (hp : p ∈ h.exchange.posts) :
    ∃ q, Payload.decode p.request.body = .ok q := by
  have hget := Table.get?_of_mem (v := (p.request, p.status)) hs.exchange.nodup_keys
    (List.mem_map_of_mem hp)
  exact (hs.exchange.tracked hget).payload

theorem circulatingSupply_eq (hs : h.Sound) : h.circulatingSupply = .ok h.books.circulating := by
  have htransits : h.books.transits =
      h.exchange.posts.map (fun p => (p.key, transitOf (p.request, p.status))) := by
    rw [books, Table.mapValues, Exchange.outline, List.map_map]
    rfl
  rw [circulatingSupply, inFlightAmount_eq (fun p hp => hs.decodes hp), Books.circulating,
    ledgerSupply_eq, htransits]
  rfl

/-- After any run the circulating supply is known, and whatever is done next leaves it as
it is, but for a ledger that is registered and an amount that is minted. -/
theorem circulatingSupply_step (address : String) (clock : Int) (d : Draws)
    (actions : List (Timestamp × Action)) :
    let h := (Host.new address clock d).run actions
    ∃ n, h.circulatingSupply = .ok n ∧ ∀ now a,
      (h.step now a).2.circulatingSupply = .ok (n + a.issued (h.step now a).1) := by
  intro h
  have hs : h.Sound := (sound_new address clock d).run actions
  refine ⟨h.books.circulating, circulatingSupply_eq hs, fun now a => ?_⟩
  have hstep := step_evolves hs now a
  rw [circulatingSupply_eq hstep.sound, hstep.books.circulating_eq, hstep.issued]

/-! ## Balances -/

def balance (h : Host) (chain : String) (a : Address) : Nat :=
  match h.module? chain with
  | some m => m.ledger.balance a
  | none => 0

/-- What the operations of a run granted an account of a chain. -/
def endowment (h : Host) (chain : String) (a : Address) : List (Timestamp × Action) → Nat
  | [] => 0
  | (now, act) :: rest =>
    ((act.granted (h.step now act).1).map (Grant.share chain a)).getD 0 +
      (h.step now act).2.endowment chain a rest

theorem balance_eq (hs : h.Sound) (chain : String) (a : Address) :
    h.balance chain a = h.books.balance chain a := by
  rw [balance]
  cases hm : h.module? chain with
  | some m =>
    obtain ⟨hmem, hid⟩ := of_module?_eq_some hm
    have hledger := hs.get?_ledgers hmem
    rw [hid] at hledger
    exact (Books.balance_of_get? hledger a).symm
  | none =>
    rw [Books.balance, get?_ledgers_eq_none hm]
    rfl

theorem balanced_run {granted : String → Address → Nat} (hs : h.Sound)
    (hb : Books.Balanced granted h.books) (actions : List (Timestamp × Action)) :
    Books.Balanced (fun chain a => granted chain a + h.endowment chain a actions)
      (h.run actions).books := by
  induction actions generalizing h granted with
  | nil => exact hb
  | cons e rest ih =>
    have hstep := step_evolves hs e.1 e.2
    have hrest := ih hstep.sound (hstep.books.balanced hb)
    intro chain a
    have hca := hrest chain a
    simp only [run, endowment] at hca ⊢
    omega

theorem posted_prefix_run (hs : h.Sound) (actions : List (Timestamp × Action)) :
    h.books.posted <+: (h.run actions).books.posted := by
  induction actions generalizing h with
  | nil => exact List.prefix_refl _
  | cons e rest ih =>
    have hstep := step_evolves hs e.1 e.2
    exact hstep.books.posted_prefix.trans (ih hstep.sound)

theorem run_append (h : Host) (xs ys : List (Timestamp × Action)) :
    h.run (xs ++ ys) = (h.run xs).run ys := by
  induction xs generalizing h with
  | nil => rfl
  | cons e rest ih => exact ih _

/-- After any run every account of every chain has what it was granted, with every
answered post to it and every post of its own that timed out, less every post that it ever
sent.  The posts are those that were ever tracked: none is removed, and none changes but in
its status.  Each of them has a payload. -/
theorem balance_run (address : String) (clock : Int) (d : Draws)
    (actions : List (Timestamp × Action)) (chain : String) (a : Address) :
    let h₀ := Host.new address clock d
    let h := h₀.run actions
    h.balance chain a + h.books.sent chain a =
        h₀.endowment chain a actions + h.books.received chain a + h.books.refunded chain a ∧
      (∀ k, (h₀.run (actions.take k)).books.posted <+: h.books.posted) ∧
      h.exchange.posts.all (fun p => (Payload.decode p.request.body).isOk) = true := by
  intro h₀ h
  have hs₀ : h₀.Sound := sound_new address clock d
  have hs : h.Sound := hs₀.run actions
  have hstart : Books.Balanced (fun _ _ => 0) h₀.books := fun _ _ => rfl
  have hbalanced := balanced_run hs₀ hstart actions chain a
  refine ⟨?_, fun k => ?_, List.all_eq_true.2 (fun p hp => ?_)⟩
  · rw [balance_eq hs]
    simp only [Nat.zero_add] at hbalanced
    exact hbalanced
  · have hsplit : h = (h₀.run (actions.take k)).run (actions.drop k) := by
      rw [← run_append, List.take_append_drop]
    rw [hsplit]
    exact posted_prefix_run (hs₀.run _) _
  · obtain ⟨q, hq⟩ := hs.decodes hp
    rw [hq]
    rfl

end Host
end Interchain
