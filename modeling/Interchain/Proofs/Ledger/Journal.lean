/-
What the journal of a unit is worth.

`Journal.Undoes j l₀ l` says that undoing `j` on the ledger `l` gives `l₀`.  It holds
when a unit opens and after every movement that notes its account, so a unit that
fails leaves the very ledger that it found, with its accounts in their order and
without those that the unit created.  The hypothesis that carries the induction is
`Fits`: accounts are noted once, and an account with a balance to go back to is there.

What holds of the ledger in use after a unit has failed has to hold of the one before it
too, so an invariant of ledgers is carried through units as `Session.Holds`.
-/
import Interchain.Ledger.Session

namespace Interchain
namespace Ledger

namespace Journal

/-- Accounts are noted once, and one that had a balance is in the table. -/
structure Fits (entries : List (Address × Option Nat)) (t : Table Address Nat) : Prop where
  nodup : (entries.map Prod.fst).Nodup
  mem : ∀ a n, (a, some n) ∈ entries → a ∈ Table.keys t

theorem fits_nil (t : Table Address Nat) : Fits [] t :=
  ⟨List.nodup_nil, fun _ _ h => absurd h List.not_mem_nil⟩

theorem fits_restore {e : Address × Option Nat} {es : List (Address × Option Nat)}
    {t : Table Address Nat} (h : Fits (e :: es) t) : Fits es (restore t e) := by
  have hnodup := List.nodup_cons.1 h.nodup
  refine ⟨hnodup.2, fun a n ha => ?_⟩
  have hmem : a ∈ Table.keys t := h.mem a n (List.mem_cons_of_mem _ ha)
  obtain ⟨b, previous⟩ := e
  cases previous with
  | none =>
    refine Table.mem_keys_erase.2 ⟨?_, hmem⟩
    rintro rfl
    exact hnodup.1 (List.mem_map.2 ⟨_, ha, rfl⟩)
  | some p => exact Table.mem_keys_put.2 (Or.inr hmem)

/-- What a noted account holds now does not matter to what it held before. -/
theorem foldl_restore_put {a : Address} (v : Nat) {es : List (Address × Option Nat)}
    {t : Table Address Nat} (h : Fits es t) (ha : a ∈ es.map Prod.fst) :
    es.foldl restore (Table.put a v t) = es.foldl restore t := by
  induction es generalizing t with
  | nil => cases ha
  | cons e es ih =>
    have hrest := fits_restore h
    obtain ⟨b, previous⟩ := e
    rw [List.foldl_cons, List.foldl_cons]
    -- the account is put back in this step or in a later one, which commutes with the change
    by_cases hb : b = a
    · subst hb
      cases previous with
      | none => rw [restore, Table.erase_put]; rfl
      | some p => rw [restore, Table.put_put]; rfl
    · have hrestmem : a ∈ es.map Prod.fst :=
        (List.mem_cons.1 ha).resolve_left (fun e => hb e.symm)
      cases previous with
      | none =>
        rw [restore, Table.erase_put_of_ne hb]
        exact ih hrest hrestmem
      | some p =>
        rw [restore, Table.put_comm_of_mem hb (h.mem b p List.mem_cons_self)]
        exact ih hrest hrestmem

theorem restore_put (a : Address) (v : Nat) (t : Table Address Nat) :
    restore (Table.put a v t) (a, Table.get? a t) = t := by
  cases h : Table.get? a t with
  | none => rw [restore, Table.erase_put, Table.erase_of_get?_eq_none h]
  | some p => rw [restore, Table.put_put, Table.put_get? h]

structure Undoes (j : Journal) (l₀ l : Ledger) : Prop where
  fits : Fits j.entries l.balances
  undo_eq : j.undo l = l₀

theorem undoes_opened (l : Ledger) : (opened l).Undoes l l := ⟨fits_nil _, rfl⟩

theorem fits_put {es : List (Address × Option Nat)} {t : Table Address Nat} (h : Fits es t)
    (a : Address) (v : Nat) : Fits es (Table.put a v t) :=
  ⟨h.nodup, fun b n hb => Table.mem_keys_put.2 (Or.inr (h.mem b n hb))⟩

theorem Undoes.move {j : Journal} {l₀ l : Ledger} (h : j.Undoes l₀ l) (m : Movement) :
    (j.note m.account (Table.get? m.account l.balances)).Undoes l₀ (l.apply m) := by
  by_cases hm : m.account ∈ j.entries.map Prod.fst
  · rw [note, if_pos hm]
    refine ⟨fits_put h.fits _ _, ?_⟩
    rw [undo, apply, foldl_restore_put _ h.fits hm]
    exact h.undo_eq
  · rw [note, if_neg hm]
    constructor
    · refine ⟨List.nodup_cons.2 ⟨hm, h.fits.nodup⟩, fun b n hb => ?_⟩
      rcases List.mem_cons.1 hb with hb | hb
      · rw [Prod.mk.injEq] at hb
        exact Table.mem_keys_put.2 (Or.inl hb.1)
      · exact Table.mem_keys_put.2 (Or.inr (h.fits.mem b n hb))
    · rw [undo, apply, List.foldl_cons, restore_put]
      exact h.undo_eq

end Journal

namespace Session

/-- A unit is open, and failing now would bring `l₀` back. -/
def Restores (s : Session) (l₀ : Ledger) : Prop :=
  ∃ j, s.journal = some j ∧ j.Undoes l₀ s.ledger

theorem restores_opened (s : Session) : s.opened.Restores s.ledger :=
  ⟨.opened s.ledger, rfl, Journal.undoes_opened s.ledger⟩

theorem Restores.move {s : Session} {l₀ : Ledger} (h : s.Restores l₀) (m : Movement) :
    (s.move m).Restores l₀ := by
  obtain ⟨j, hj, hu⟩ := h
  exact ⟨_, by rw [Session.move, hj]; rfl, hu.move m⟩

/-- A unit that fails leaves the ledger that it found. -/
theorem Restores.rollback {s : Session} {l₀ : Ledger} (h : s.Restores l₀) :
    s.rollback = start l₀ := by
  obtain ⟨j, hj, hu⟩ := h
  rw [Session.rollback, hj]
  show (⟨j.undo s.ledger, none⟩ : Session) = ⟨l₀, none⟩
  rw [hu.undo_eq]

/-- `P` holds of the ledger, and of what an open unit would go back to. -/
structure Holds (P : Ledger → Prop) (s : Session) : Prop where
  ledger : P s.ledger
  restores : s.journal ≠ none → ∃ l₀, P l₀ ∧ s.Restores l₀

section

variable {P : Ledger → Prop} {s : Session}

theorem holds_start {l : Ledger} (h : P l) : (start l).Holds P := ⟨h, fun hj => absurd rfl hj⟩

theorem Holds.move (h : s.Holds P) {m : Movement} (hm : P (s.ledger.apply m)) :
    (s.move m).Holds P := by
  refine ⟨hm, fun hj => ?_⟩
  have hopen : s.journal ≠ none := fun hn => hj (by rw [Session.move, hn]; rfl)
  obtain ⟨l₀, hl₀, hr⟩ := h.restores hopen
  exact ⟨l₀, hl₀, hr.move m⟩

theorem Holds.opened (h : s.Holds P) : s.opened.Holds P :=
  ⟨h.ledger, fun _ => ⟨_, h.ledger, restores_opened _⟩⟩

theorem Holds.commit (h : s.Holds P) : s.commit.Holds P := holds_start h.ledger

theorem Holds.rollback (h : s.Holds P) : s.rollback.Holds P := by
  cases hj : s.journal with
  | none =>
    rw [Session.rollback, hj]
    exact h
  | some j =>
    obtain ⟨l₀, hl₀, hr⟩ := h.restores (by rw [hj]; exact Option.some_ne_none j)
    rw [hr.rollback]
    exact holds_start hl₀

end

end Session
end Ledger
end Interchain
