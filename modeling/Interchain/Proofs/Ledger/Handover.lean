/-
Ledgers that survive being handed over.

A ledger takes any text of an address for an account, and account numbers of 31 digits reach
beyond 160 bits.  The text of such an account is not read back, so a ledger that has one is
not restored from its own state.  Nothing else stands in the way (`Sound.ofState_toState`): a
script that starts from an empty ledger leaves, at every point and in every unit, a ledger
that is restored as it is unless it has such an account, and it has none that the script has
not named (`Step.runEach_handedOver`).
-/
import Interchain.Proofs.Ledger.Restore
import Interchain.Proofs.Ledger.Script

namespace Interchain
namespace Ledger

variable {l : Ledger} {a : Address} {b : Address × Nat} {t u : Table Address Nat} {c : Cause}

/-! ## What is refused of a ledger -/

theorem account_render_of_wide (h : ¬ a.IsNarrow) :
    account a.render = .error (.notAddress "account") := by
  have hreread : a.reread = .error .malformed := if_neg h
  rw [account_render, holder, hreread]

/-- An entry of a ledger is refused for the text of its account. -/
theorem cause_of_readEntry (hfresh : b.1 ∉ Table.keys t) (hfits : b.2 ≤ maxUint256)
    (h : readEntry t (entry b) = .error c) : c = .notAddress "account" := by
  by_cases hnarrow : b.1.IsNarrow
  · cases h.symm.trans (readEntry_eq_ok.2 ⟨reads_entry.2 ⟨hnarrow, hfits⟩, hfresh⟩)
  · rw [readEntry, entry, account_render_of_wide hnarrow] at h
    exact (Except.error.inj h).symm

theorem cause_of_readBalances (hnodup : (Table.keys (t ++ u)).Nodup)
    (hfits : ∀ b ∈ u, b.2 ≤ maxUint256) (h : readBalances t (u.map entry) = .error c) :
    c = .notAddress "account" := by
  induction u generalizing t with
  | nil => cases h
  | cons b u ih =>
    rw [List.map_cons, readBalances_cons, bind_eq_error] at h
    rcases h with h | ⟨b', hb', h⟩
    · have hfresh : b.1 ∉ Table.keys t := by
        intro hmem
        rw [Table.keys, List.map_append] at hnodup
        exact (List.nodup_append.1 hnodup).2.2 _ hmem _ List.mem_cons_self rfl
      exact cause_of_readEntry hfresh (hfits b List.mem_cons_self) h
    · obtain rfl : b' = b := (readEntry_eq_ok.1 hb').1.eq_of_entry
      rw [← List.singleton_append, ← List.append_assoc] at hnodup
      exact ih hnodup (fun e he => hfits e (List.mem_cons_of_mem _ he)) h

/-- A sound ledger is restored from its state as it is, unless it has an account beyond 160
bits; then the text of that account is refused. -/
theorem Sound.ofState_toState (h : l.Sound) :
    ofState l.toState =
      if ∀ a ∈ l.accounts, a.IsNarrow then .ok l else .error (.notAddress "account") := by
  split
  · next hnarrow => exact Ledger.ofState_toState ⟨h, hnarrow⟩
  · next hwide =>
    cases hread : readBalances [] l.toState.balances with
    | error c =>
      have hfits (b : Address × Nat) (hb : b ∈ l.balances) : b.2 ≤ maxUint256 :=
        Nat.le_trans (h.entry_le_supply hb) h.fits
      rw [ofState_of_error hread, cause_of_readBalances (t := []) h.nodup hfits hread]
    | ok u =>
      refine absurd (fun a ha => ?_) hwide
      obtain ⟨b, hb, rfl⟩ := List.mem_map.1 ha
      obtain ⟨b', hb'⟩ :=
        reads_of_mem (readBalances_nil_eq_ok.1 hread).1 (List.mem_map_of_mem (f := entry) hb)
      exact (Address.parse?_render_eq_some.1 hb'.account).2

/-! ## What a script names -/

/-- Every account of the ledger is one that a text in `ts` names. -/
def IsNamedBy (ts : List String) (l : Ledger) : Prop :=
  ∀ a ∈ l.accounts, ∃ t ∈ ts, Address.parse? t = some a

namespace Step

variable {α : Type}

theorem upholds_isNamedBy (ts : List String) : Upholds (fun t => t ∈ ts) (IsNamedBy ts) := by
  constructor
  · intro l t n m ht hl hm
    obtain ⟨k, -, a, ha, hm⟩ := credit_eq_ok.1 hm
    rw [(creditAccount_eq_ok.1 hm).1]
    exact forall_accounts_apply hl ⟨t, ht, account_eq_ok.1 ha⟩
  · intro l t n m ht hl hm
    obtain ⟨k, -, a, ha, hm⟩ := debit_eq_ok.1 hm
    rw [(debitAccount_eq_ok.1 hm).1]
    exact forall_accounts_apply hl ⟨t, ht, account_eq_ok.1 ha⟩

/-- The texts that the steps of a script credit or debit, those in its units included. -/
def namedEach (steps : List (Step α)) : List String := steps.flatMap named

/-- Whatever a script does to a new ledger, at every point of it the state of the ledger
restores the ledger itself, which nothing done later can tell from the one in use, unless there
is an account beyond 160 bits.  A script has no such account if it names none. -/
theorem runEach_handedOver (steps : List (Step α)) :
    ∀ l ∈ Ledger.empty :: (runEach steps (.start .empty)).map Entry.ledger,
      (ofState l.toState =
        if ∀ a ∈ l.accounts, a.IsNarrow then .ok l else .error (.notAddress "account")) ∧
      ((∀ t ∈ namedEach steps, ∀ a, Address.parse? t = some a → a.IsNarrow) →
        ofState l.toState = .ok l) := by
  intro l hl
  have hsound : l.Sound := points_hold upholds_sound (fun _ _ _ _ => trivial) sound_empty l hl
  refine ⟨hsound.ofState_toState, fun hnarrow => ?_⟩
  have hnamed : ∀ step ∈ steps, ∀ t ∈ step.named, t ∈ namedEach steps :=
    fun step hstep t ht => List.mem_flatMap.2 ⟨step, hstep, ht⟩
  have hempty : IsNamedBy (namedEach steps) .empty := fun a ha => (nomatch ha)
  refine Ledger.ofState_toState ⟨hsound, fun a ha => ?_⟩
  obtain ⟨t, ht, hparse⟩ := points_hold (upholds_isNamedBy _) hnamed hempty l hl a ha
  exact hnarrow t ht a hparse

/-- One account under two spellings, in a unit that fails. -/
theorem runEach_handedOver_spellings :
    let upper := "00000000000000000000000000000000000000DD"
    let lower := "0x00000000000000000000000000000000000000dd"
    let l : Ledger := ⟨[(⟨0xdd, by decide⟩, 3)], 3⟩
    let script : List (Step Unit) :=
      [.credit upper 5, .atomically [(false, .debit lower 2), (false, .debit lower 9)] none none]
    l ∈ Ledger.empty :: (runEach script (.start .empty)).map Entry.ledger ∧
      ofState l.toState = .ok l := by
  intro upper lower l script
  have hmem : l ∈ Ledger.empty :: (runEach script (.start .empty)).map Entry.ledger := by
    decide +kernel
  have hupper : Address.IsDigitText upper := by decide +kernel
  have hlower : Address.IsDigitText lower := by decide +kernel
  have hdigits : ∀ t ∈ [upper, lower, lower], Address.IsDigitText t := by
    simp only [List.forall_mem_cons]
    exact ⟨hupper, hlower, hlower, fun _ ht => (nomatch ht)⟩
  exact ⟨hmem, (runEach_handedOver script l hmem).2
    (fun t ht a ha => (hdigits t ht).isNarrow ha)⟩

/-- An account number of 31 digits is credited, and the ledger is lost when it is handed over. -/
theorem wide_not_handedOver :
    let text := "XE54ZZZZZZZZZZZZZZZZZZZZZZZZZZZZZZZ"
    let l : Ledger := ⟨[(⟨36 ^ 31 - 1, by decide⟩, 5)], 5⟩
    let script : List (Step Unit) := [.credit text 5]
    (runEach script (.start .empty)).map Entry.ledger = [l] ∧
      ofState l.toState = .error (.notAddress "account") := by
  intro text l script
  have hrun : (runEach script (.start .empty)).map Entry.ledger = [l] := by decide +kernel
  have hmem : l ∈ Ledger.empty :: (runEach script (.start .empty)).map Entry.ledger := by
    rw [hrun]
    exact List.mem_cons_of_mem _ List.mem_cons_self
  have hsound : l.Sound :=
    points_hold upholds_sound (fun _ _ _ _ => trivial) sound_empty l hmem
  have hwide : ¬ ∀ a ∈ l.accounts, a.IsNarrow :=
    fun h => absurd (h _ List.mem_cons_self) (by decide)
  exact ⟨hrun, hsound.ofState_toState.trans (if_neg hwide)⟩

end Step
end Ledger
end Interchain
