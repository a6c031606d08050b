/-
Which states are ledgers.

A state is read balance by balance, and a balance is refused either for itself or because its
account has come before (`readEntry`).  What is read is a table that agrees with the state
entry by entry and has distinct accounts (`readBalances_eq_ok`); the relation between the two,
`Reads`, carries the induction.  So a state is restored exactly if it is consistent, the ledger
hands it over again with every account respelled, and a state that is not is refused for its
list, its supply or its size (`ofState_exact`).
-/
import Interchain.Proofs.Envelope.Arguments
import Mathlib.Algebra.Ring.Int.Defs
import Mathlib.Data.List.Forall2
import Mathlib.Data.List.Nodup

namespace Interchain

/-! ## States -/

namespace LedgerState

/-- Every account is an address that is listed once, in whatever spelling, and every balance
fits a word. -/
structure IsListed (s : LedgerState) : Prop where
  accounts : ∀ e ∈ s.balances, ∃ a, Address.parse? e.1 = some a
  distinct : (s.balances.map (fun e => Address.normal e.1)).Nodup
  bounds : ∀ e ∈ s.balances, 0 ≤ e.2 ∧ e.2 ≤ maxUint256

def sum (s : LedgerState) : Int := (s.balances.map Prod.snd).sum

/-- The balances add up to the supply, which fits a word as well. -/
structure IsConsistent (s : LedgerState) : Prop extends IsListed s where
  sum_eq : s.sum = s.totalSupply
  fits : s.sum ≤ maxUint256

def normal (s : LedgerState) : LedgerState :=
  ⟨s.totalSupply, s.balances.map (fun e => (Address.normal e.1, e.2))⟩

end LedgerState

namespace Ledger

variable {s : LedgerState} {l l' : Ledger} {t u w : Table Address Nat} {e : String × Int}
  {es : List (String × Int)} {b : Address × Nat} {c : Cause}

/-! ## What a ledger hands over -/

def entry (e : Address × Nat) : String × Int := (e.1.render, Int.ofNat e.2)

theorem entry_injective : Function.Injective entry := by
  intro e e' h
  obtain ⟨hname, hbalance⟩ := Prod.mk.inj h
  exact Prod.ext (Address.render_injective hname) (Int.ofNat.inj hbalance)

theorem toState_injective (h : l.toState = l'.toState) : l = l' := by
  obtain ⟨hsupply, hbalances⟩ := LedgerState.mk.inj h
  obtain ⟨t, n⟩ := l
  obtain ⟨t', n'⟩ := l'
  have ht : t = t' := List.map_injective_iff.2 entry_injective hbalances
  have hn : n = n' := Int.ofNat.inj hsupply
  rw [ht, hn]

theorem normal_toState (l : Ledger) : l.toState.normal = l.toState := by
  have hentry (b : Address × Nat) : (Address.normal (entry b).1, (entry b).2) = entry b := by
    rw [entry, Address.normal_render]
  show (⟨_, (l.balances.map entry).map _⟩ : LedgerState) = ⟨_, l.balances.map entry⟩
  rw [List.map_map]
  exact congrArg _ (List.map_congr_left (fun b _ => hentry b))

theorem keys_entries (t : Table Address Nat) :
    (t.map entry).map Prod.fst = (Table.keys t).map Address.render := by
  rw [List.map_map, Table.keys, List.map_map]
  rfl

theorem sum_entries (t : Table Address Nat) :
    ((t.map entry).map Prod.snd).sum = (Table.sum id t : Int) := by
  induction t with
  | nil => rfl
  | cons e t ih =>
    rw [List.map_cons, List.map_cons, List.sum_cons, ih, Table.sum]
    rfl

/-! ## Balances -/

/-- A balance of a state, and what is read for it. -/
structure Reads (e : String × Int) (b : Address × Nat) : Prop where
  account : Address.parse? e.1 = some b.1
  balance : e.2 = b.2
  fits : b.2 ≤ maxUint256

theorem Reads.entry_eq (h : Reads e b) : entry b = (Address.normal e.1, e.2) := by
  rw [entry, Address.normal_of_parse? h.account, h.balance]
  rfl

/-- An entry of a ledger is read as itself, unless its account is beyond 160 bits. -/
theorem reads_entry : Reads (entry b) b ↔ b.1.IsNarrow ∧ b.2 ≤ maxUint256 := by
  constructor
  · intro h
    exact ⟨(Address.parse?_render_eq_some.1 h.account).2, h.fits⟩
  · rintro ⟨hnarrow, hfits⟩
    exact ⟨Address.parse?_render_eq_some.2 ⟨rfl, hnarrow⟩, rfl, hfits⟩

theorem Reads.eq_of_entry {b' : Address × Nat} (h : Reads (entry b) b') : b' = b := by
  refine entry_injective (h.entry_eq.trans ?_)
  rw [entry, Address.normal_render]

theorem reads_entries :
    (t.map entry).Forall₂ Reads t ↔ ∀ b ∈ t, b.1.IsNarrow ∧ b.2 ≤ maxUint256 := by
  rw [List.forall₂_map_left_iff, List.forall₂_same]
  simp only [reads_entry]

theorem entries_of_reads (h : es.Forall₂ Reads u) :
    u.map entry = es.map (fun e => (Address.normal e.1, e.2)) := by
  induction h with
  | nil => rfl
  | cons hread _ ih => rw [List.map_cons, List.map_cons, ih, hread.entry_eq]

theorem exists_reads (haccounts : ∀ e ∈ es, ∃ a, Address.parse? e.1 = some a)
    (hbounds : ∀ e ∈ es, 0 ≤ e.2 ∧ e.2 ≤ maxUint256) : ∃ u, es.Forall₂ Reads u := by
  induction es with
  | nil => exact ⟨[], .nil⟩
  | cons e es ih =>
    obtain ⟨a, ha⟩ := haccounts e List.mem_cons_self
    obtain ⟨hzero, hmax⟩ := hbounds e List.mem_cons_self
    obtain ⟨u, hu⟩ := ih (fun e he => haccounts e (List.mem_cons_of_mem _ he))
      (fun e he => hbounds e (List.mem_cons_of_mem _ he))
    have hbalance : e.2 = (e.2.toNat : Int) := by omega
    have hfits : e.2.toNat ≤ maxUint256 := by omega
    exact ⟨(a, e.2.toNat) :: u, .cons ⟨ha, hbalance, hfits⟩ hu⟩

theorem reads_of_mem (h : es.Forall₂ Reads u) (he : e ∈ es) : ∃ b, Reads e b := by
  induction h with
  | nil => cases he
  | cons hread _ ih =>
    rcases List.mem_cons.1 he with rfl | he
    · exact ⟨_, hread⟩
    · exact ih he

theorem nodup_normal (h : es.Forall₂ Reads u) :
    (es.map (fun e => Address.normal e.1)).Nodup ↔ (Table.keys u).Nodup := by
  have hnames : es.map (fun e => Address.normal e.1) = (Table.keys u).map Address.render := by
    rw [← keys_entries, entries_of_reads h, List.map_map]
    rfl
  rw [hnames]
  exact List.nodup_map_iff (fun _ _ => Address.render_injective)

theorem sum_of_reads (h : es.Forall₂ Reads u) :
    (es.map Prod.snd).sum = (Table.sum id u : Int) := by
  have hbalances : es.map Prod.snd = (u.map entry).map Prod.snd := by
    rw [entries_of_reads h, List.map_map]
    rfl
  rw [hbalances, sum_entries]

/-- A state is well listed exactly if there is a table of distinct accounts to read for it. -/
theorem isListed_iff :
    s.IsListed ↔ ∃ u, s.balances.Forall₂ Reads u ∧ (Table.keys u).Nodup := by
  constructor
  · intro h
    obtain ⟨u, hu⟩ := exists_reads h.accounts h.bounds
    exact ⟨u, hu, (nodup_normal hu).1 h.distinct⟩
  · rintro ⟨u, hu, hnodup⟩
    refine ⟨fun e he => ?_, (nodup_normal hu).2 hnodup, fun e he => ?_⟩
    · obtain ⟨b, hb⟩ := reads_of_mem hu he
      exact ⟨b.1, hb.account⟩
    · obtain ⟨b, hb⟩ := reads_of_mem hu he
      have hbalance := hb.balance
      have hfits := hb.fits
      omega

/-! ## Reading -/

def readEntry (t : Table Address Nat) (e : String × Int) : Except Cause (Address × Nat) := do
  let a ← account e.1
  if a ∈ Table.keys t then .error (.duplicateAccount a)
  else if e.2 < 0 ∨ (maxUint256 : Int) < e.2 then .error (.balanceRange a)
  else .ok (a, e.2.toNat)

theorem readBalances_cons (t : Table Address Nat) (e : String × Int) (es : List (String × Int)) :
    readBalances t (e :: es) = readEntry t e >>= fun b => readBalances (t ++ [b]) es := by
  obtain ⟨name, n⟩ := e
  rw [readBalances, readEntry]
  cases account name with
  | error c => rfl
  | ok a =>
    have hseen : (Table.get? a t).isSome = true ↔ a ∈ Table.keys t := by
      rw [← not_iff_not, ← Table.get?_eq_none_iff, Option.not_isSome_iff_eq_none]
    simp only [hseen, bind, Except.bind]
    split
    · rfl
    · split
      · rfl
      · rfl

theorem account_eq_ok {name : String} {a : Address} :
    account name = .ok a ↔ Address.parse? name = some a := Params.address_eq_ok

theorem readEntry_eq_ok : readEntry t e = .ok b ↔ Reads e b ∧ b.1 ∉ Table.keys t := by
  simp only [readEntry, bind_eq_ok, account_eq_ok]
  constructor
  · rintro ⟨a, ha, h⟩
    split at h
    · cases h
    · next hfresh =>
      split at h
      · cases h
      · next hrange =>
        cases h
        have hbalance : e.2 = (e.2.toNat : Int) := by omega
        have hfits : e.2.toNat ≤ maxUint256 := by omega
        exact ⟨⟨ha, hbalance, hfits⟩, hfresh⟩
  · rintro ⟨hread, hfresh⟩
    obtain ⟨a, n⟩ := b
    have hbalance : e.2 = n := hread.balance
    have hfits : n ≤ maxUint256 := hread.fits
    refine ⟨a, hread.account, ?_⟩
    rw [if_neg hfresh, if_neg (by omega), hbalance]
    rfl

/-- A table is read for the balances of a state, behind those in `t`, exactly if it agrees with
them one by one and the accounts of both are distinct. -/
theorem readBalances_eq_ok (ht : (Table.keys t).Nodup) :
    readBalances t es = .ok w ↔
      ∃ u, t ++ u = w ∧ es.Forall₂ Reads u ∧ (Table.keys w).Nodup := by
  -- An account is compared with those in `t` alone; that no later one repeats it is in `w`.
  induction es generalizing t with
  | nil =>
    rw [readBalances, Except.ok.injEq]
    constructor
    · rintro rfl
      exact ⟨[], List.append_nil _, .nil, ht⟩
    · rintro ⟨u, rfl, hu, -⟩
      cases hu
      rw [List.append_nil]
  | cons e es ih =>
    rw [readBalances_cons, bind_eq_ok]
    have hkeys (b : Address × Nat) : Table.keys (t ++ [b]) = Table.keys t ++ [b.1] := by
      rw [Table.keys, List.map_append]
      rfl
    constructor
    · rintro ⟨b, hb, hrest⟩
      obtain ⟨hread, hfresh⟩ := readEntry_eq_ok.1 hb
      have hnodup : (Table.keys (t ++ [b])).Nodup := by
        rw [hkeys, ← List.concat_eq_append]
        exact ht.concat hfresh
      obtain ⟨u, rfl, hu, hw⟩ := (ih hnodup).1 hrest
      exact ⟨b :: u, by rw [List.append_assoc, List.singleton_append], .cons hread hu, hw⟩
    · rintro ⟨_, hsplit, hu, hw⟩
      obtain ⟨b, u, hread, hrest, rfl⟩ := List.forall₂_cons_left_iff.1 hu
      rw [← List.singleton_append, ← List.append_assoc] at hsplit
      have hnodup : (Table.keys (t ++ [b])).Nodup := by
        rw [← hsplit, Table.keys, List.map_append] at hw
        exact hw.of_append_left
      have hfresh : b.1 ∉ Table.keys t := by
        rw [hkeys, ← List.concat_eq_append] at hnodup
        exact ((List.nodup_concat _ _).1 hnodup).1
      exact ⟨b, readEntry_eq_ok.2 ⟨hread, hfresh⟩, (ih hnodup).2 ⟨u, hsplit, hrest, hw⟩⟩

theorem readBalances_nil_eq_ok :
    readBalances [] es = .ok u ↔ es.Forall₂ Reads u ∧ (Table.keys u).Nodup := by
  have hnil : (Table.keys ([] : Table Address Nat)).Nodup := List.nodup_nil
  rw [readBalances_eq_ok hnil]
  constructor
  · rintro ⟨_, rfl, h⟩
    exact h
  · intro h
    exact ⟨u, rfl, h⟩

theorem code_of_readEntry (h : readEntry t e = .error c) : c.code = .validationFailed := by
  rw [readEntry, bind_eq_error] at h
  rcases h with h | ⟨a, -, h⟩
  · rw [account] at h
    split at h
    · cases h
      rfl
    · cases h
  · split at h
    · cases h
      rfl
    · split at h
      · cases h
        rfl
      · cases h

theorem code_of_readBalances (h : readBalances t es = .error c) : c.code = .validationFailed := by
  induction es generalizing t with
  | nil => cases h
  | cons e es ih =>
    rw [readBalances_cons, bind_eq_error] at h
    rcases h with h | ⟨b, -, h⟩
    · exact code_of_readEntry h
    · exact ih h

/-! ## Books -/

/-- Once the balances are read, their sum decides. -/
theorem ofState_of_read (h : readBalances [] s.balances = .ok u) :
    ofState s =
      if s.sum ≠ s.totalSupply then .error (.supplyMismatch s.totalSupply s.sum)
      else if maxUint256 < s.sum then .error .supplyOverflow
      else .ok ⟨u, Table.sum id u⟩ := by
  have hsum : s.sum = (Table.sum id u : Int) := sum_of_reads (readBalances_nil_eq_ok.1 h).1
  rw [ofState, h, hsum]
  simp only [Int.ofNat_lt]

theorem ofState_of_error (h : readBalances [] s.balances = .error c) : ofState s = .error c := by
  rw [ofState, h]

theorem ofState_eq_ok :
    ofState s = .ok l ↔
      (s.balances.Forall₂ Reads l.balances ∧ l.accounts.Nodup) ∧
        s.totalSupply = l.supply ∧ l.total = l.supply ∧ l.supply ≤ maxUint256 := by
  cases h : readBalances [] s.balances with
  | error c =>
    rw [ofState_of_error h]
    refine iff_of_false (fun hok => nomatch hok) (fun hl => ?_)
    cases h.symm.trans (readBalances_nil_eq_ok.2 hl.1)
  | ok u =>
    have hsum : s.sum = (Table.sum id u : Int) := sum_of_reads (readBalances_nil_eq_ok.1 h).1
    rw [ofState_of_read h]
    constructor
    · intro hok
      split at hok
      · cases hok
      · next hsupply =>
        split at hok
        · cases hok
        · next hfits =>
          cases hok
          have htotal : s.totalSupply = (Table.sum id u : Int) := by omega
          have hfit : Table.sum id u ≤ maxUint256 := by omega
          exact ⟨readBalances_nil_eq_ok.1 h, htotal, rfl, hfit⟩
    · rintro ⟨hread, hsupply, htotal, hfits⟩
      obtain ⟨t, n⟩ := l
      obtain rfl : u = t := Except.ok.inj (h.symm.trans (readBalances_nil_eq_ok.2 hread))
      have htotal : Table.sum id u = n := htotal
      have hsupply : s.totalSupply = n := hsupply
      have hfits : n ≤ maxUint256 := hfits
      rw [if_neg (by omega), if_neg (by omega), htotal]

theorem exists_ofState : (∃ l, ofState s = .ok l) ↔ s.IsConsistent := by
  constructor
  · rintro ⟨l, hl⟩
    obtain ⟨⟨hread, hnodup⟩, hsupply, htotal, hfits⟩ := ofState_eq_ok.1 hl
    have hsum : s.sum = (l.total : Int) := sum_of_reads hread
    exact ⟨isListed_iff.2 ⟨_, hread, hnodup⟩, by omega, by omega⟩
  · intro h
    obtain ⟨u, hread, hnodup⟩ := isListed_iff.1 h.toIsListed
    have hsum : s.sum = (Table.sum id u : Int) := sum_of_reads hread
    have hsupply : s.totalSupply = (Table.sum id u : Int) := h.sum_eq.symm.trans hsum
    have hfits : Table.sum id u ≤ maxUint256 := Int.ofNat_le.1 (hsum ▸ h.fits)
    exact ⟨⟨u, Table.sum id u⟩, ofState_eq_ok.2 ⟨⟨hread, hnodup⟩, hsupply, rfl, hfits⟩⟩

/-- What was restored is handed over as the state, with its accounts respelled. -/
theorem toState_of_ofState (h : ofState s = .ok l) : l.toState = s.normal := by
  obtain ⟨⟨hread, -⟩, hsupply, -, -⟩ := ofState_eq_ok.1 h
  have hentries : l.balances.map entry = _ := entries_of_reads hread
  rw [LedgerState.normal, ← hentries, hsupply]
  rfl

theorem eq_of_ofState_toState (h : ofState l.toState = .ok l') : l' = l :=
  toState_injective ((toState_of_ofState h).trans (normal_toState l))

/-- A state is refused for its list first, then for its supply, then for its size. -/
theorem code_of_ofState (h : ofState s = .error c) :
    (c.code = .validationFailed ∧ ¬ s.IsListed) ∨
      (c.code = .conservationViolation ∧ s.IsListed ∧ s.sum ≠ s.totalSupply) ∨
      (c.code = .overflow ∧ s.IsListed ∧ s.sum = s.totalSupply ∧ maxUint256 < s.sum) := by
  cases hread : readBalances [] s.balances with
  | error c' =>
    obtain rfl : c' = c := Except.error.inj ((ofState_of_error hread).symm.trans h)
    refine Or.inl ⟨code_of_readBalances hread, fun hlisted => ?_⟩
    obtain ⟨u, hu⟩ := isListed_iff.1 hlisted
    cases hread.symm.trans (readBalances_nil_eq_ok.2 hu)
  | ok u =>
    have hlisted : s.IsListed := isListed_iff.2 ⟨u, readBalances_nil_eq_ok.1 hread⟩
    rw [ofState_of_read hread] at h
    split at h
    · next hsupply =>
      cases h
      exact Or.inr (Or.inl ⟨rfl, hlisted, hsupply⟩)
    · next hsupply =>
      split at h
      · next hfits =>
        cases h
        exact Or.inr (Or.inr ⟨rfl, hlisted, not_not.1 hsupply, hfits⟩)
      · cases h

/-- A state is restored exactly if it is consistent; the ledger then hands over the state with
every account in its normal text, in the same order.  Any other state is refused as invalid if
its list is, as unconserved if the balances miss its supply, and else as an overflow. -/
theorem ofState_exact (s : LedgerState) :
    ((∃ l, ofState s = .ok l) ↔ s.IsConsistent) ∧
      (∀ l, ofState s = .ok l → l.toState = s.normal) ∧
      ∀ c, ofState s = .error c →
        (c.code = .validationFailed ∧ ¬ s.IsListed) ∨
          (c.code = .conservationViolation ∧ s.IsListed ∧ s.sum ≠ s.totalSupply) ∨
          (c.code = .overflow ∧ s.IsListed ∧ s.sum = s.totalSupply ∧ maxUint256 < s.sum) :=
  ⟨exists_ofState, fun _ => toState_of_ofState, fun _ => code_of_ofState⟩

/-- An account in capitals is restored under its normal text, and refused next to another
spelling of it. -/
theorem ofState_exact_spellings :
    let upper := "00000000000000000000000000000000000000DD"
    let lower := "0x00000000000000000000000000000000000000dd"
    let a : Address := ⟨0xdd, by decide⟩
    (ofState ⟨5, [(upper, 5)]⟩ = .ok ⟨[(a, 5)], 5⟩ ∧
        (⟨[(a, 5)], 5⟩ : Ledger).toState = LedgerState.normal ⟨5, [(upper, 5)]⟩ ∧
        LedgerState.IsConsistent ⟨5, [(upper, 5)]⟩) ∧
      ofState ⟨5, [(lower, 2), (upper, 3)]⟩ = .error (.duplicateAccount a) ∧
        ¬ LedgerState.IsListed ⟨5, [(lower, 2), (upper, 3)]⟩ := by
  intro upper lower a
  have hone : ofState ⟨5, [(upper, 5)]⟩ = .ok ⟨[(a, 5)], 5⟩ := by decide +kernel
  have htwo : ofState ⟨5, [(lower, 2), (upper, 3)]⟩ = .error (.duplicateAccount a) := by
    decide +kernel
  obtain ⟨hconsistent, hstate, -⟩ := ofState_exact ⟨5, [(upper, 5)]⟩
  refine ⟨⟨hone, hstate _ hone, hconsistent.1 ⟨_, hone⟩⟩, htwo, ?_⟩
  rcases (ofState_exact ⟨5, [(lower, 2), (upper, 3)]⟩).2.2 _ htwo with h | h | h
  · exact h.2
  · cases h.1
  · cases h.1

end Ledger
end Interchain
