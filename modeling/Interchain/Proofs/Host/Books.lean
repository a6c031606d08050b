/-
The books of a host: its ledgers by chain, and its posts by key.

Whatever a host does, its books change by few moves.  A transfer burns and enters a
transit, a delivery mints and marks the transit as answered, a timeout mints back and
marks it as timed out; these are internal.  From outside come an opening ledger and a
genesis mint; these are grants.

No internal move changes what is in circulation (`Internal.circulating_eq`), and each of
them keeps every account in balance with its transits (`Internal.balanced`).
-/
import Interchain.Envelope.Payload
import Interchain.Lifecycle
import Interchain.Proofs.Ledger.Reachable
import Mathlib.Logic.Relation

namespace Interchain

open Relation (ReflTransGen)

/-- A post as the books have it; there is no payload if its body holds none. -/
structure Transit where
  source : String
  dest : String
  payload : Option Payload
  status : RequestStatus
deriving DecidableEq

structure Books where
  ledgers : Table String Ledger
  transits : Table String Transit
deriving DecidableEq

namespace Transit

def amount (t : Transit) : Nat := (t.payload.map Payload.amount).getD 0

/-- What was burnt for a transit and is minted nowhere yet. -/
def inFlight (t : Transit) : Nat := if t.status = .dispatched then t.amount else 0

def sent (chain : String) (a : Address) (t : Transit) : Nat :=
  if t.source = chain ∧ t.payload.map Payload.sender = some a then t.amount else 0

def received (chain : String) (a : Address) (t : Transit) : Nat :=
  if t.dest = chain ∧ t.payload.map Payload.recipient = some a ∧ t.status = .responded then
    t.amount
  else 0

def refunded (chain : String) (a : Address) (t : Transit) : Nat :=
  if t.source = chain ∧ t.payload.map Payload.sender = some a ∧ t.status = .timedOut then
    t.amount
  else 0

end Transit

inductive Grant
  | opening (chain : String) (ledger : Ledger)
  | genesis (chain : String) (account : Address) (amount : Nat)

namespace Grant

def total : Grant → Nat
  | .opening _ l => l.supply
  | .genesis _ _ n => n

def share (chain : String) (a : Address) : Grant → Nat
  | .opening c l => if c = chain then l.balance a else 0
  | .genesis c b n => if c = chain ∧ b = a then n else 0

end Grant

namespace Books

def circulating (b : Books) : Nat :=
  Table.sum Ledger.supply b.ledgers + Table.sum Transit.inFlight b.transits

def balance (b : Books) (chain : String) (a : Address) : Nat :=
  ((Table.get? chain b.ledgers).map (fun l => l.balance a)).getD 0

def sent (b : Books) (chain : String) (a : Address) : Nat :=
  Table.sum (Transit.sent chain a) b.transits

def received (b : Books) (chain : String) (a : Address) : Nat :=
  Table.sum (Transit.received chain a) b.transits

def refunded (b : Books) (chain : String) (a : Address) : Nat :=
  Table.sum (Transit.refunded chain a) b.transits

/-! ## Moves -/

def enter (b : Books) (chain : String) (l : Ledger) (key : String) (t : Transit) : Books :=
  ⟨Table.put chain l b.ledgers, Table.put key t b.transits⟩

inductive Internal : Books → Books → Prop
  | burnt {b : Books} {key : String} {t : Transit} {p : Payload} {l : Ledger}
      {m : Ledger.Movement} (fresh : Table.get? key b.transits = none)
      (payload_eq : t.payload = some p) (status_eq : t.status = .dispatched)
      (ledger_eq : Table.get? t.source b.ledgers = some l) (sound : l.Sound)
      (move_eq : l.debitAccount p.sender p.amount = .ok m) :
      Internal b (b.enter t.source (l.apply m) key t)
  | answered {b : Books} {key : String} {t : Transit} {p : Payload} {l : Ledger}
      {m : Ledger.Movement} (transit_eq : Table.get? key b.transits = some t)
      (payload_eq : t.payload = some p) (status_eq : t.status = .dispatched)
      (ledger_eq : Table.get? t.dest b.ledgers = some l)
      (move_eq : l.creditAccount p.recipient p.amount = .ok m) :
      Internal b (b.enter t.dest (l.apply m) key { t with status := .responded })
  | timedOut {b : Books} {key : String} {t : Transit} {p : Payload} {l : Ledger}
      {m : Ledger.Movement} (transit_eq : Table.get? key b.transits = some t)
      (payload_eq : t.payload = some p) (status_eq : t.status = .dispatched)
      (ledger_eq : Table.get? t.source b.ledgers = some l)
      (move_eq : l.creditAccount p.sender p.amount = .ok m) :
      Internal b (b.enter t.source (l.apply m) key { t with status := .timedOut })

inductive Granted : Books → Grant → Books → Prop
  | opened {b : Books} {chain : String} {l : Ledger}
      (fresh : Table.get? chain b.ledgers = none) :
      Granted b (.opening chain l) ⟨Table.put chain l b.ledgers, b.transits⟩
  | minted {b : Books} {chain : String} {a : Address} {n : Nat} {l : Ledger}
      {m : Ledger.Movement} (ledger_eq : Table.get? chain b.ledgers = some l)
      (move_eq : l.creditAccount a n = .ok m) :
      Granted b (.genesis chain a n) ⟨Table.put chain (l.apply m) b.ledgers, b.transits⟩

/-! ## Circulation -/

variable {b b' : Books} {chain key : String} {l : Ledger} {t : Transit}

theorem sum_put_of_get? {κ ν : Type} [DecidableEq κ] (f : ν → Nat) {k : κ} {v w : ν}
    {t : Table κ ν} (h : Table.get? k t = some w) :
    Table.sum f (Table.put k v t) + f w = Table.sum f t + f v := by
  have hsum := Table.sum_put f k v t
  rw [h] at hsum
  exact hsum

theorem sum_put_of_fresh {κ ν : Type} [DecidableEq κ] (f : ν → Nat) {k : κ} {v : ν}
    {t : Table κ ν} (h : Table.get? k t = none) :
    Table.sum f (Table.put k v t) = Table.sum f t + f v := by
  have hsum := Table.sum_put f k v t
  rw [h] at hsum
  exact hsum

theorem amount_eq {p : Payload} (h : t.payload = some p) : t.amount = p.amount := by
  rw [Transit.amount, h]
  rfl

/-- A transit leaves flight as its amount is minted. -/
theorem circulating_settle {a : Address} {n : Nat} {s : RequestStatus}
    (htransit : Table.get? key b.transits = some t) (hn : t.amount = n)
    (hstatus : t.status = .dispatched) (hs : s ≠ .dispatched)
    (hledger : Table.get? chain b.ledgers = some l) :
    (b.enter chain (l.apply (l.raise a n)) key { t with status := s }).circulating =
      b.circulating := by
  have hledgers := sum_put_of_get? Ledger.supply (v := l.apply (l.raise a n)) hledger
  have htransits := sum_put_of_get? Transit.inFlight (v := { t with status := s }) htransit
  have hbefore : t.inFlight = n := by rw [Transit.inFlight, if_pos hstatus, hn]
  have hafter : Transit.inFlight { t with status := s } = 0 := if_neg hs
  have hsupply : (l.apply (l.raise a n)).supply = l.supply + n := rfl
  simp only [circulating, enter]
  omega

theorem Internal.circulating_eq (h : Internal b b') : b'.circulating = b.circulating := by
  cases h with
  | @burnt key t p l m hfresh hpayload hstatus hledger hsound hmove =>
    obtain ⟨rfl, hle⟩ := Ledger.debitAccount_eq_ok.1 hmove
    have hsupply := hsound.balance_le_supply p.sender
    have hledgers := sum_put_of_get? Ledger.supply
      (v := l.apply (l.lower p.sender p.amount)) hledger
    have htransits := sum_put_of_fresh Transit.inFlight (v := t) hfresh
    have hflight : t.inFlight = p.amount := by
      rw [Transit.inFlight, if_pos hstatus, amount_eq hpayload]
    have hlower : (l.apply (l.lower p.sender p.amount)).supply = l.supply - p.amount := rfl
    simp only [circulating, enter]
    omega
  | @answered key t p l m htransit hpayload hstatus hledger hmove =>
    obtain ⟨rfl, -, -⟩ := Ledger.creditAccount_eq_ok.1 hmove
    exact circulating_settle htransit (amount_eq hpayload) hstatus (by decide) hledger
  | @timedOut key t p l m htransit hpayload hstatus hledger hmove =>
    obtain ⟨rfl, -, -⟩ := Ledger.creditAccount_eq_ok.1 hmove
    exact circulating_settle htransit (amount_eq hpayload) hstatus (by decide) hledger

theorem Granted.circulating_eq {g : Grant} (h : Granted b g b') :
    b'.circulating = b.circulating + g.total := by
  cases h with
  | @opened chain l hfresh =>
    have hledgers := sum_put_of_fresh Ledger.supply (v := l) hfresh
    simp only [circulating, Grant.total]
    omega
  | @minted chain a n l m hledger hmove =>
    obtain ⟨rfl, -, -⟩ := Ledger.creditAccount_eq_ok.1 hmove
    have hledgers := sum_put_of_get? Ledger.supply (v := l.apply (l.raise a n)) hledger
    have hsupply : (l.apply (l.raise a n)).supply = l.supply + n := rfl
    simp only [circulating, Grant.total]
    omega

/-! ## Balances -/

/-- Every account has what it was granted and received and got back, less what it sent. -/
def Balanced (granted : String → Address → Nat) (b : Books) : Prop :=
  ∀ chain a, b.balance chain a + b.sent chain a =
    granted chain a + b.received chain a + b.refunded chain a

theorem balance_of_get? (h : Table.get? chain b.ledgers = some l) (a : Address) :
    b.balance chain a = l.balance a := by
  rw [balance, h]
  rfl

theorem balance_put_self (l : Ledger) (ts : Table String Transit) (a : Address) :
    balance ⟨Table.put chain l b.ledgers, ts⟩ chain a = l.balance a :=
  balance_of_get? (Table.get?_put_self chain l b.ledgers) a

theorem balance_put_of_ne {c : String} (h : c ≠ chain) (l : Ledger) (ts : Table String Transit)
    (a : Address) : balance ⟨Table.put chain l b.ledgers, ts⟩ c a = b.balance c a := by
  rw [balance, Table.get?_put_of_ne h]
  rfl

theorem balance_apply {m : Ledger.Movement} (h : Table.get? chain b.ledgers = some l)
    (ts : Table String Transit) (c : String) (a : Address) :
    balance ⟨Table.put chain (l.apply m) b.ledgers, ts⟩ c a =
      if chain = c ∧ m.account = a then m.balance else b.balance c a := by
  by_cases hc : chain = c
  · subst hc
    rw [balance_put_self, balance_of_get? h]
    by_cases ha : m.account = a
    · rw [if_pos ⟨rfl, ha⟩, ← ha, Ledger.balance_apply_self]
    · rw [if_neg (fun e => ha e.2), Ledger.balance_apply_of_ne l m (fun e => ha e.symm)]
  · rw [if_neg (fun e => hc e.1), balance_put_of_ne (fun e => hc e.symm)]

theorem balance_raise {x : Address} {n : Nat} (h : Table.get? chain b.ledgers = some l)
    (ts : Table String Transit) (c : String) (a : Address) :
    balance ⟨Table.put chain (l.apply (l.raise x n)) b.ledgers, ts⟩ c a =
      b.balance c a + if chain = c ∧ x = a then n else 0 := by
  rw [balance_apply h]
  show (if chain = c ∧ x = a then l.balance x + n else _) = _
  by_cases hac : chain = c ∧ x = a
  · rw [if_pos hac, if_pos hac, ← hac.1, ← hac.2, balance_of_get? h]
  · rw [if_neg hac, if_neg hac]
    rfl

def supply (b : Books) (chain : String) : Nat :=
  ((Table.get? chain b.ledgers).map Ledger.supply).getD 0

theorem supply_of_get? (h : Table.get? chain b.ledgers = some l) : b.supply chain = l.supply := by
  rw [supply, h]
  rfl

theorem supply_raise {x : Address} {n : Nat} (h : Table.get? chain b.ledgers = some l)
    (ts : Table String Transit) (c : String) :
    supply ⟨Table.put chain (l.apply (l.raise x n)) b.ledgers, ts⟩ c =
      b.supply c + if chain = c then n else 0 := by
  by_cases hc : chain = c
  · subst hc
    rw [supply_of_get? h, if_pos rfl]
    exact supply_of_get? (b := ⟨_, ts⟩) (Table.get?_put_self chain _ b.ledgers)
  · rw [if_neg hc, supply, Table.get?_put_of_ne (fun e => hc e.symm)]
    rfl

theorem balance_lower {x : Address} {n : Nat} (h : Table.get? chain b.ledgers = some l)
    (hn : n ≤ l.balance x) (ts : Table String Transit) (c : String) (a : Address) :
    balance ⟨Table.put chain (l.apply (l.lower x n)) b.ledgers, ts⟩ c a +
      (if chain = c ∧ x = a then n else 0) = b.balance c a := by
  rw [balance_apply h]
  show (if chain = c ∧ x = a then l.balance x - n else _) + _ = _
  by_cases hac : chain = c ∧ x = a
  · rw [if_pos hac, if_pos hac, ← hac.1, ← hac.2, balance_of_get? h]
    omega
  · rw [if_neg hac, if_neg hac]
    rfl

theorem sent_eq {p : Payload} (h : t.payload = some p) (c : String) (a : Address) :
    t.sent c a = if t.source = c ∧ p.sender = a then p.amount else 0 := by
  simp only [Transit.sent, amount_eq h, h, Option.map_some, Option.some.injEq]

theorem received_eq {p : Payload} (h : t.payload = some p) (c : String) (a : Address) :
    t.received c a =
      if t.dest = c ∧ p.recipient = a ∧ t.status = .responded then p.amount else 0 := by
  simp only [Transit.received, amount_eq h, h, Option.map_some, Option.some.injEq]

theorem refunded_eq {p : Payload} (h : t.payload = some p) (c : String) (a : Address) :
    t.refunded c a =
      if t.source = c ∧ p.sender = a ∧ t.status = .timedOut then p.amount else 0 := by
  simp only [Transit.refunded, amount_eq h, h, Option.map_some, Option.some.injEq]

theorem received_of_dispatched (h : t.status = .dispatched) (c : String) (a : Address) :
    t.received c a = 0 := by
  refine if_neg (fun e => ?_)
  rw [h] at e
  exact absurd e.2.2 (by decide)

theorem refunded_of_dispatched (h : t.status = .dispatched) (c : String) (a : Address) :
    t.refunded c a = 0 := by
  refine if_neg (fun e => ?_)
  rw [h] at e
  exact absurd e.2.2 (by decide)

/-- A transit leaves flight to the credit of the account that its amount is minted to. -/
theorem Balanced.settle {granted : String → Address → Nat} (hb : Balanced granted b) {x : Address}
    {p : Payload} {s : RequestStatus} (htransit : Table.get? key b.transits = some t)
    (hpayload : t.payload = some p) (hstatus : t.status = .dispatched)
    (hledger : Table.get? chain b.ledgers = some l)
    (hcredit : ∀ c a, Transit.received c a { t with status := s } +
      Transit.refunded c a { t with status := s } = if chain = c ∧ x = a then p.amount else 0) :
    Balanced granted
      (b.enter chain (l.apply (l.raise x p.amount)) key { t with status := s }) := by
  intro c a
  have hca := hb c a
  have hcredited := hcredit c a
  have hended : ({ t with status := s } : Transit).payload = some p := hpayload
  have hsent := sum_put_of_get? (Transit.sent c a) (v := { t with status := s }) htransit
  have hreceived := sum_put_of_get? (Transit.received c a) (v := { t with status := s }) htransit
  have hrefunded := sum_put_of_get? (Transit.refunded c a) (v := { t with status := s }) htransit
  have hbalance := balance_raise (x := x) (n := p.amount) hledger
    (Table.put key { t with status := s } b.transits) c a
  rw [sent_eq hpayload, sent_eq hended] at hsent
  rw [received_of_dispatched hstatus] at hreceived
  rw [refunded_of_dispatched hstatus] at hrefunded
  simp only [sent, received, refunded, enter] at hca hbalance hsent ⊢
  omega

theorem Internal.balanced {granted : String → Address → Nat} (hb : Balanced granted b)
    (h : Internal b b') : Balanced granted b' := by
  cases h with
  | @burnt key t p l m hfresh hpayload hstatus hledger _ hmove =>
    intro c a
    have hca := hb c a
    obtain ⟨rfl, hle⟩ := Ledger.debitAccount_eq_ok.1 hmove
    have hsent := sum_put_of_fresh (Transit.sent c a) (v := t) hfresh
    have hreceived := sum_put_of_fresh (Transit.received c a) (v := t) hfresh
    have hrefunded := sum_put_of_fresh (Transit.refunded c a) (v := t) hfresh
    have hbalance := balance_lower hledger hle (Table.put key t b.transits) c a
    rw [sent_eq hpayload] at hsent
    rw [received_of_dispatched hstatus] at hreceived
    rw [refunded_of_dispatched hstatus] at hrefunded
    simp only [sent, received, refunded, enter] at hca hbalance ⊢
    omega
  | @answered key t p l m htransit hpayload hstatus hledger hmove =>
    obtain ⟨rfl, -, -⟩ := Ledger.creditAccount_eq_ok.1 hmove
    refine hb.settle htransit hpayload hstatus hledger (fun c a => ?_)
    have hended : ({ t with status := .responded } : Transit).payload = some p := hpayload
    rw [received_eq hended, refunded_eq hended]
    simp
  | @timedOut key t p l m htransit hpayload hstatus hledger hmove =>
    obtain ⟨rfl, -, -⟩ := Ledger.creditAccount_eq_ok.1 hmove
    refine hb.settle htransit hpayload hstatus hledger (fun c a => ?_)
    have hended : ({ t with status := .timedOut } : Transit).payload = some p := hpayload
    rw [received_eq hended, refunded_eq hended]
    simp

theorem Granted.balanced {granted : String → Address → Nat} {g : Grant}
    (hb : Balanced granted b) (h : Granted b g b') :
    Balanced (fun c a => granted c a + g.share c a) b' := by
  intro c a
  have hca := hb c a
  cases h with
  | @opened chain l hfresh =>
    simp only [sent, received, refunded, Grant.share] at hca ⊢
    by_cases hc : chain = c
    · subst hc
      have hbefore : b.balance chain a = 0 := by rw [balance, hfresh]; rfl
      rw [if_pos rfl, balance_put_self]
      omega
    · rw [if_neg hc, balance_put_of_ne (fun e => hc e.symm)]
      omega
  | @minted chain x n l m hledger hmove =>
    obtain ⟨rfl, -, -⟩ := Ledger.creditAccount_eq_ok.1 hmove
    have hbalance := balance_raise (x := x) (n := n) hledger b.transits c a
    simp only [sent, received, refunded, Grant.share] at hca ⊢
    omega

/-! ## Transits stay -/

def posted (b : Books) : Table String (String × String × Option Payload) :=
  Table.mapValues (fun t => (t.source, t.dest, t.payload)) b.transits

theorem posted_enter_of_fresh (h : Table.get? key b.transits = none) :
    (b.enter chain l key t).posted = b.posted ++ [(key, t.source, t.dest, t.payload)] := by
  rw [posted, enter, Table.put_of_get?_eq_none h, Table.mapValues, List.map_append]
  rfl

theorem posted_enter_of_get? (h : Table.get? key b.transits = some t) (s : RequestStatus) :
    (b.enter chain l key { t with status := s }).posted = b.posted := by
  rw [posted, enter, Table.mapValues_put]
  refine Table.put_get? ?_
  rw [Table.get?_mapValues, h]
  rfl

/-- No internal move removes a transit or changes more of it than its status. -/
theorem Internal.posted_prefix (h : Internal b b') : b.posted <+: b'.posted := by
  cases h with
  | burnt hfresh => exact ⟨_, (posted_enter_of_fresh hfresh).symm⟩
  | answered htransit => exact (posted_enter_of_get? htransit .responded).symm ▸ List.prefix_refl _
  | timedOut htransit => exact (posted_enter_of_get? htransit .timedOut).symm ▸ List.prefix_refl _

/-! ## Courses of moves -/

def Evolves (b : Books) : Option Grant → Books → Prop
  | none, b' => ReflTransGen Internal b b'
  | some g, b' => Granted b g b'

theorem evolves_of_eq (h : b' = b) : b.Evolves none b' := h ▸ .refl

theorem Evolves.circulating_eq {g : Option Grant} (h : b.Evolves g b') :
    b'.circulating = b.circulating + (g.map Grant.total).getD 0 := by
  cases g with
  | some g => exact Granted.circulating_eq h
  | none =>
    have hmoves : ReflTransGen Internal b b' := h
    induction hmoves with
    | refl => rfl
    | tail hmoves hmove ih => exact hmove.circulating_eq.trans (ih hmoves)

theorem Evolves.balanced {granted : String → Address → Nat} {g : Option Grant}
    (hb : Balanced granted b) (h : b.Evolves g b') :
    Balanced (fun c a => granted c a + (g.map (Grant.share c a)).getD 0) b' := by
  cases g with
  | some g => exact Granted.balanced hb h
  | none =>
    have hmoves : ReflTransGen Internal b b' := h
    induction hmoves with
    | refl => exact hb
    | tail hmoves hmove ih => exact hmove.balanced (ih hmoves)

theorem Evolves.posted_prefix {g : Option Grant} (h : b.Evolves g b') : b.posted <+: b'.posted := by
  cases g with
  | some g =>
    have hgranted : Granted b g b' := h
    cases hgranted with
    | opened => exact List.prefix_refl _
    | minted => exact List.prefix_refl _
  | none =>
    have hmoves : ReflTransGen Internal b b' := h
    induction hmoves with
    | refl => exact List.prefix_refl _
    | tail hmoves hmove ih => exact (ih hmoves).trans hmove.posted_prefix

end Books
end Interchain
