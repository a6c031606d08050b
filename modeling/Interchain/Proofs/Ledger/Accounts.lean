/-
Accounts are the numbers that texts spell.

A ledger reads a text and keeps the number.  So a credit or a debit moves the balance of every
text that spells the same number, by the same amount, and that of no other text
(`shifts_credit`, `shifts_debit`), and a script whose accounts are spelled anew step by step
runs as it did, with every answer, failure and ledger the same (`runEach_respelled`).  The
second is by induction on how the two scripts correspond, units within units included.
-/
import Interchain.Ledger.Script
import Interchain.Proofs.Address.Spelling
import Interchain.Proofs.Ledger.Reachable
import Interchain.Proofs.Ledger.Work

namespace Interchain

open Address (Spells)

structure LedgerState.Respelled (s s' : LedgerState) : Prop where
  supply : s.totalSupply = s'.totalSupply
  balances : s.balances.Forall₂ (fun e e' => Address.Respelled e.1 e'.1 ∧ e.2 = e'.2) s'.balances

namespace Ledger

variable {l : Ledger} {t t' : String} {p q : Nat}

/-! ## Accounts -/

theorem account_congr (h : Address.Respelled t t') : account t = account t' := by
  rw [account, account, Address.parse?_eq_iff.2 h]

theorem exists_account (h : Spells t p) : ∃ a, account t = .ok a ∧ a.value = p := by
  obtain ⟨a, ha, hvalue⟩ := h.exists_parse?
  exact ⟨a, account_eq_ok.2 ha, hvalue⟩

theorem balanceOf_of_account {a : Address} (h : account t = .ok a) :
    l.balanceOf t = .ok (l.balance a) := by
  rw [balanceOf, h]
  rfl

theorem exists_balanceOf : (∃ n, l.balanceOf t = .ok n) ↔ ∃ p, Spells t p := by
  constructor
  · rintro ⟨n, h⟩
    obtain ⟨a, ha, -⟩ := map_eq_ok.1 h
    exact ⟨a.value, Address.parse?_eq_some_iff.1 (account_eq_ok.1 ha)⟩
  · rintro ⟨p, h⟩
    obtain ⟨a, ha, -⟩ := exists_account h
    exact ⟨_, balanceOf_of_account ha⟩

/-! ## One movement -/

namespace Session

variable {s s' : Session}

/-- The balance that `t` names in `s'` is the one that it names in `s` and `d` more. -/
def Shifts (s s' : Session) (t : String) (d : Int) : Prop :=
  ∃ n n' : Nat, s.ledger.balanceOf t = .ok n ∧ s'.ledger.balanceOf t = .ok n' ∧ (n' : Int) = n + d

/-- A movement shifts the balance of its account and no other. -/
theorem shifts_move {m : Movement} {d : Int}
    (hm : (m.balance : Int) = s.ledger.balance m.account + d) (ht : Spells t p) :
    s.Shifts (s.move m) t (if m.account.value = p then d else 0) := by
  obtain ⟨b, hb, rfl⟩ := exists_account ht
  refine ⟨_, _, balanceOf_of_account hb, balanceOf_of_account hb, ?_⟩
  show ((s.ledger.apply m).balance b : Int) = _
  by_cases hvalue : m.account.value = b.value
  · obtain rfl := Address.eq_of_value_eq hvalue
    rw [if_pos rfl, balance_apply_self, hm]
  · have hne : b ≠ m.account := fun h => hvalue (h ▸ rfl)
    rw [if_neg hvalue, balance_apply_of_ne _ _ hne, Int.add_zero]

end Session

/-! ## Credits and debits -/

namespace Step

variable {α : Type} {s s' : Session} {es es' : List (Entry α)} {answer : Answer α} {n : Int}

theorem move_of_run {f : Ledger → Except Cause Movement}
    (h : (Answer.balance <$> Work.move f : Work (List (Entry α)) (Answer α)) (s, es) =
      (.ok answer, s', es')) :
    ∃ m, f s.ledger = .ok m ∧ s.move m = s' := by
  change (Work.move f >>= fun k => pure (Answer.balance k) : Work (List (Entry α)) (Answer α))
    (s, es) = _ at h
  rw [Work.bind_apply, Work.move] at h
  cases hf : f s.ledger with
  | error c =>
    rw [hf] at h
    cases h
  | ok m =>
    rw [hf] at h
    cases h
    exact ⟨m, rfl, rfl⟩

/-- A credit that succeeds raises the balance of every spelling of its account by the amount,
and leaves every other balance. -/
theorem shifts_credit (ht : Spells t p) (ht' : Spells t' q)
    (h : run (.credit t n) (s, es) = (.ok answer, s', es')) :
    s.Shifts s' t' (if p = q then n else 0) := by
  obtain ⟨m, hcredit, rfl⟩ := move_of_run h
  obtain ⟨k, hk, a, ha, hm⟩ := credit_eq_ok.1 hcredit
  obtain ⟨rfl, -⟩ := amount_eq_ok.1 hk
  obtain ⟨rfl, -⟩ := creditAccount_eq_ok.1 hm
  obtain rfl : p = a.value := ht.unique (Address.parse?_eq_some_iff.1 (account_eq_ok.1 ha))
  exact Session.shifts_move (m := s.ledger.raise a k) (Int.natCast_add _ _) ht'

theorem shifts_debit (ht : Spells t p) (ht' : Spells t' q)
    (h : run (.debit t n) (s, es) = (.ok answer, s', es')) :
    s.Shifts s' t' (if p = q then -n else 0) := by
  obtain ⟨m, hdebit, rfl⟩ := move_of_run h
  obtain ⟨k, hk, a, ha, hm⟩ := debit_eq_ok.1 hdebit
  obtain ⟨rfl, -⟩ := amount_eq_ok.1 hk
  obtain ⟨rfl, hcovered⟩ := debitAccount_eq_ok.1 hm
  obtain rfl : p = a.value := ht.unique (Address.parse?_eq_some_iff.1 (account_eq_ok.1 ha))
  exact Session.shifts_move (m := s.ledger.lower a k) (Int.ofNat_sub hcovered) ht'

/-! ## Scripts -/

mutual
/-- One step twice, its accounts spelled as they may be each time. -/
inductive Respelled : Step α → Step α → Prop
  | same (step : Step α) : Respelled step step
  | credit {t t' : String} (n : Int) (h : Address.Respelled t t') :
      Respelled (.credit t n) (.credit t' n)
  | debit {t t' : String} (n : Int) (h : Address.Respelled t t') :
      Respelled (.debit t n) (.debit t' n)
  | balanceOf {t t' : String} (h : Address.Respelled t t') :
      Respelled (.balanceOf t) (.balanceOf t')
  | atomically {steps steps' : List (Bool × Step α)} (fail : Option String) (value : Option α)
      (h : AllRespelled steps steps') :
      Respelled (.atomically steps fail value) (.atomically steps' fail value)

inductive AllRespelled : List (Bool × Step α) → List (Bool × Step α) → Prop
  | nil : AllRespelled [] []
  | cons (isCaught : Bool) {step step' : Step α} {rest rest' : List (Bool × Step α)}
      (h : Respelled step step') (hrest : AllRespelled rest rest') :
      AllRespelled ((isCaught, step) :: rest) ((isCaught, step') :: rest')
end

theorem Respelled.name_eq {step step' : Step α} (h : Respelled step step') :
    step.name = step'.name := by
  cases h with
  | same => rfl
  | credit n h => rfl
  | debit n h => rfl
  | balanceOf h => rfl
  | atomically fail value h => rfl

mutual
theorem Respelled.run_eq {step step' : Step α} (h : Respelled step step') :
    run step = run step' := by
  cases h with
  | same => rfl
  | @credit t t' n h =>
    have hcredit (l : Ledger) : l.credit t n = l.credit t' n := by
      rw [Ledger.credit, Ledger.credit, account_congr h]
    simp only [run, hcredit]
  | @debit t t' n h =>
    have hdebit (l : Ledger) : l.debit t n = l.debit t' n := by
      rw [Ledger.debit, Ledger.debit, account_congr h]
    simp only [run, hdebit]
  | @balanceOf t t' h =>
    have hbalance (l : Ledger) : l.balanceOf t = l.balanceOf t' := by
      rw [Ledger.balanceOf, Ledger.balanceOf, account_congr h]
    simp only [run, hbalance]
  | atomically fail value h => rw [run, run, h.runAll_eq]

theorem AllRespelled.runAll_eq {steps steps' : List (Bool × Step α)}
    (h : AllRespelled steps steps') : runAll steps = runAll steps' := by
  cases h with
  | nil => rfl
  | cons isCaught h hrest => rw [runAll, runAll, h.run_eq, h.name_eq, hrest.runAll_eq]
end

/-- Steps whose accounts are spelled anew give the same record. -/
theorem runEach_respelled {steps steps' : List (Step α)} (h : steps.Forall₂ Respelled steps') :
    runEach steps s = runEach steps' s := by
  induction h generalizing s with
  | nil => rfl
  | cons h _ ih =>
    rw [runEach, runEach, h.run_eq, h.name_eq]
    simp only [ih]

end Step

/-! ## States -/

theorem readBalances_respelled {es es' : List (String × Int)} {w : Table Address Nat}
    (h : es.Forall₂ (fun e e' => Address.Respelled e.1 e'.1 ∧ e.2 = e'.2) es') :
    readBalances w es = readBalances w es' := by
  induction h generalizing w with
  | nil => rfl
  | @cons e e' es es' h _ ih =>
    have hread : readEntry w e = readEntry w e' := by
      rw [readEntry, readEntry, account_congr h.1, h.2]
    rw [readBalances_cons, readBalances_cons, hread]
    simp only [ih]

theorem ofState_respelled {s s' : LedgerState} (h : s.Respelled s') : ofState s = ofState s' := by
  rw [ofState, ofState, readBalances_respelled h.balances, h.supply]

/-! ## Accounts as numbers -/

/-- Exactly the texts that spell a number are accounts.  A credit or debit that succeeds moves
the balance of every spelling of its number by the amount and leaves all others.  States and
scripts whose accounts are spelled anew, text by text, give the same ledger or refusal, and the
same answers, failures and ledgers after every step. -/
theorem accounts_by_number (α : Type) :
    (∀ (l : Ledger) (t : String), (∃ n, l.balanceOf t = .ok n) ↔ ∃ p, Spells t p) ∧
    (∀ (s s' : Session) (es es' : List (Entry α)) (answer : Answer α) (t t' : String) (p q : Nat)
      (n : Int), Spells t p → Spells t' q →
      (Step.run (.credit t n) (s, es) = (.ok answer, s', es') →
        s.Shifts s' t' (if p = q then n else 0)) ∧
      (Step.run (.debit t n) (s, es) = (.ok answer, s', es') →
        s.Shifts s' t' (if p = q then -n else 0))) ∧
    (∀ s s' : LedgerState, s.Respelled s' → ofState s = ofState s') ∧
    (∀ (steps steps' : List (Step α)) (s : Session), steps.Forall₂ Step.Respelled steps' →
      Step.runEach steps s = Step.runEach steps' s) :=
  ⟨fun _ _ => exists_balanceOf,
    fun _ _ _ _ _ _ _ _ _ _ ht ht' => ⟨Step.shifts_credit ht ht', Step.shifts_debit ht ht'⟩,
    fun _ _ => ofState_respelled,
    fun _ _ _ => Step.runEach_respelled⟩

/-- One account in capitals, in lower case and as an account number, and another one. -/
theorem accounts_by_number_spellings :
    let upper := "00000000000000000000000000000000000000DD"
    let lower := "0x00000000000000000000000000000000000000dd"
    let icap := "XE41000000000000000000000000000065"
    let other := "0x0000000000000000000000000000000000000001"
    let s : Session := .start ⟨[(⟨0xdd, by decide⟩, 5)], 5⟩
    let script (t t' : String) : List (Step Unit) :=
      [.credit t 5, .atomically [(true, .debit t' 9), (false, .debit t 2)] none none]
    (Spells upper 0xdd ∧ Spells lower 0xdd ∧ Spells icap 0xdd ∧ Spells other 1) ∧
      ((Session.start .empty).Shifts s icap 5 ∧ (Session.start .empty).Shifts s other 0) ∧
      (∃ n, s.ledger.balanceOf lower = .ok n) ∧
      ofState ⟨5, [(upper, 5)]⟩ = ofState ⟨5, [(icap, 5)]⟩ ∧
      Step.runEach (script upper lower) s = Step.runEach (script icap upper) s := by
  intro upper lower icap other s script
  have hspells {t : String} {a : Address} : Address.parse? t = some a → Spells t a.value :=
    Address.parse?_eq_some_iff.1
  have hupper : Spells upper 0xdd := hspells (a := ⟨0xdd, by decide⟩) (by decide +kernel)
  have hlower : Spells lower 0xdd := hspells (a := ⟨0xdd, by decide⟩) (by decide +kernel)
  have hicap : Spells icap 0xdd := hspells (a := ⟨0xdd, by decide⟩) (by decide +kernel)
  have hother : Spells other 1 := hspells (a := ⟨1, by decide⟩) (by decide +kernel)
  obtain ⟨hbalance, hshifts, hstates, hscripts⟩ := accounts_by_number Unit
  have hrun : Step.run (α := Unit) (.credit upper 5) (.start .empty, []) =
      (.ok (.balance 5), s, []) := by
    simp only [upper, s]
    rfl
  have hrespelled := hupper.respelled hicap
  refine ⟨⟨hupper, hlower, hicap, hother⟩, ⟨?_, ?_⟩, (hbalance _ _).2 ⟨_, hlower⟩, ?_, ?_⟩
  · exact (hshifts _ _ _ _ _ _ _ _ _ _ hupper hicap).1 hrun
  · exact (hshifts _ _ _ _ _ _ _ _ _ _ hupper hother).1 hrun
  · exact hstates _ _ ⟨rfl, .cons ⟨hrespelled, rfl⟩ .nil⟩
  · have hunit : Step.AllRespelled (α := Unit) [(true, .debit lower 9), (false, .debit upper 2)]
        [(true, .debit upper 9), (false, .debit icap 2)] :=
      .cons true (.debit 9 (hlower.respelled hupper)) (.cons false (.debit 2 hrespelled) .nil)
    exact hscripts _ _ _ (.cons (.credit 5 hrespelled) (.cons (.atomically none none hunit) .nil))

end Ledger
end Interchain
