/-
Ledgers that come back as they were stored.

A ledger is restorable if its books are sound and each of its accounts has a text that
is read as the account again (`IsRestorable`).  Credits and debits of such accounts keep
it so.  A restorable ledger is rebuilt from its own state, balance by balance and in the
order of its accounts (`ofState_toState`), the decimal texts of its state are read as
the state (`SnapshotFields.toState_ofState`), and the document made of them breaks no
rule for stored documents (`SnapshotDocument.breaches_ofSnapshot`).
-/
import Interchain.Ledger.Document
import Interchain.Proofs.Envelope.Arguments
import Interchain.Proofs.Ledger.Reachable

namespace Interchain
namespace Ledger

structure IsRestorable (l : Ledger) : Prop where
  sound : l.Sound
  narrow : ∀ a ∈ l.accounts, a.IsNarrow

theorem isRestorable_empty : IsRestorable .empty := ⟨sound_empty, fun _ ha => (nomatch ha)⟩

variable {l l' : Ledger} {a : Address} {n : Nat} {m : Movement}

theorem forall_accounts_apply {p : Address → Prop} (h : ∀ a ∈ l.accounts, p a)
    (hm : p m.account) : ∀ a ∈ (l.apply m).accounts, p a := by
  intro b hb
  rcases Table.mem_keys_put.1 hb with rfl | hb
  · exact hm
  · exact h b hb

theorem IsRestorable.raise (h : l.IsRestorable) (ha : a.IsNarrow)
    (hm : l.creditAccount a n = .ok m) : (l.apply m).IsRestorable := by
  refine ⟨h.sound.raise hm, forall_accounts_apply h.narrow ?_⟩
  rw [(creditAccount_eq_ok.1 hm).1]
  exact ha

theorem IsRestorable.lower (h : l.IsRestorable) (ha : a.IsNarrow)
    (hm : l.debitAccount a n = .ok m) : (l.apply m).IsRestorable := by
  refine ⟨h.sound.lower hm, forall_accounts_apply h.narrow ?_⟩
  rw [(debitAccount_eq_ok.1 hm).1]
  exact ha

/-! ## The state of a ledger -/

/-- The state of a ledger restores that ledger, if it is restorable, or none. -/
theorem ofState_toState_eq_ok : ofState l.toState = .ok l' ↔ l' = l ∧ l.IsRestorable := by
  constructor
  · intro h
    obtain rfl : l' = l := eq_of_ofState_toState h
    refine ⟨rfl, sound_ofState h, fun a ha => ?_⟩
    obtain ⟨b, hb, rfl⟩ := List.mem_map.1 ha
    exact (reads_entries.1 (ofState_eq_ok.1 h).1.1 b hb).1
  · rintro ⟨rfl, h⟩
    have hreads : (l'.balances.map entry).Forall₂ Reads l'.balances :=
      reads_entries.2 (fun b hb => ⟨h.narrow b.1 (List.mem_map_of_mem hb),
        Nat.le_trans (h.sound.entry_le_supply hb) h.sound.fits⟩)
    exact ofState_eq_ok.2 ⟨⟨hreads, h.sound.nodup⟩, rfl, h.sound.conserved, h.sound.fits⟩

theorem ofState_toState (h : l.IsRestorable) : ofState l.toState = .ok l :=
  ofState_toState_eq_ok.2 ⟨rfl, h⟩

end Ledger

/-! ## Decimal texts -/

namespace SnapshotFields

theorem numeral_toString (field : String) (n : Nat) :
    numeral field (toString (Int.ofNat n)) = .ok (Int.ofNat n) := by
  have hparse : Decimal.parse? (toString (Int.ofNat n)) = some n := Decimal.parse?_repr n
  rw [numeral, hparse]
  rfl

/-- The texts of a ledger say what its state is. -/
theorem toState_ofState (l : Ledger) : (ofState l.toState).toState = .ok l.toState := by
  have hbalances : (ofState l.toState).balances.mapM readBalance = .ok l.toState.balances := by
    show ((l.balances.map Ledger.entry).map (fun e => (e.1, toString e.2))).mapM readBalance =
      .ok (l.balances.map Ledger.entry)
    induction l.balances with
    | nil => rfl
    | cons e t ih =>
      have hread : readBalance (e.1.render, toString (Int.ofNat e.2)) = .ok (Ledger.entry e) := by
        rw [readBalance, numeral_toString]
        rfl
      rw [List.map_cons, List.map_cons, List.mapM_cons]
      exact bind_eq_ok.2 ⟨_, hread, bind_eq_ok.2 ⟨_, ih, rfl⟩⟩
  exact bind_eq_ok.2 ⟨_, numeral_toString _ _, bind_eq_ok.2 ⟨_, hbalances, rfl⟩⟩

end SnapshotFields

/-! ## Stored documents -/

namespace SnapshotDocument

variable {t : String}

theorem required_text (path : String) (h : t.toList ≠ []) : required path (some t) = [] :=
  if_neg (fun e => h (List.isEmpty_iff.1 e))

theorem numeral_text (path : String) (h : Decimal.isNumeral t = true) :
    numeral path (some t) = [] := by
  have htext : t.toList ≠ [] := by
    intro hempty
    rw [Decimal.isNumeral, hempty] at h
    cases h
  simp only [numeral, required_text path htext]
  exact if_pos h

theorem isNumeral_toString (n : Nat) : Decimal.isNumeral (toString (Int.ofNat n)) = true :=
  Decimal.isNumeral_repr n

theorem balanceBreaches_text (i : Nat) (a : Address) (h : Decimal.isNumeral t = true) :
    balanceBreaches i ⟨some a.render, some t⟩ = [] := by
  have haccount : a.render.toList ≠ [] := Address.toList_render_ne_nil a
  simp only [balanceBreaches, required_text _ haccount, numeral_text _ h, List.append_nil]

theorem breaches_eq_nil {d : SnapshotDocument}
    (hmachine : required "stateMachine" d.stateMachine = [])
    (haddress : required "moduleAddress" d.moduleAddress = [])
    (hsupply : numeral "totalSupply" d.totalSupply = [])
    (hbalances : ∀ b ∈ d.balances, ∀ i, balanceBreaches i b = []) : d.breaches = [] := by
  have hall : (d.balances.mapIdx balanceBreaches).flatten = [] := by
    rw [List.flatten_eq_nil_iff]
    intro found hfound
    obtain ⟨i, hi, rfl⟩ := List.mem_mapIdx.1 hfound
    exact hbalances _ (List.getElem_mem hi) i
  rw [breaches, hmachine, haddress, hsupply, hall]
  exact (List.mergeSort_perm _ _).eq_nil

/-- The document of a ledger breaks no rule, if it says whose ledger it is. -/
theorem breaches_ofSnapshot {stateMachine moduleAddress : String} (l : Ledger) (now : Timestamp)
    (hmachine : stateMachine.toList ≠ []) (haddress : moduleAddress.toList ≠ []) :
    (ofSnapshot ⟨stateMachine, moduleAddress, .ofState l.toState, now⟩).breaches = [] := by
  refine breaches_eq_nil (required_text _ hmachine) (required_text _ haddress)
    (numeral_text _ (isNumeral_toString l.supply)) (fun b hb i => ?_)
  simp only [ofSnapshot, SnapshotFields.ofState, Ledger.toState, List.map_map, List.mem_map,
    Function.comp_apply] at hb
  obtain ⟨e, -, rfl⟩ := hb
  exact balanceBreaches_text i e.1 (isNumeral_toString e.2)

end SnapshotDocument
end Interchain
