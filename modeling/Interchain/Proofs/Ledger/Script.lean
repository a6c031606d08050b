/-
What can be seen of a ledger while a script runs.

A script credits and debits as it likes, with any texts and any integers, and nests units
in units, whose failures it catches or not.  `runEach_coherent` says that the ledger is
coherent at every point between two steps, those of open units included: its supply is the
sum of its balances and fits a word, and its accounts are distinct.

One step keeps an invariant of ledgers, by induction on the tree of its steps (`keeps_run`).
What is kept has to speak of the journal as well, since a unit that fails brings an earlier
ledger back; it is that of `Session.Holds`.
-/
import Interchain.Ledger.Script
import Interchain.Proofs.Ledger.Reachable
import Interchain.Proofs.Ledger.Work

namespace Interchain

/-- Accounts are distinct, the supply is the sum of the balances and covers each of them,
and it fits a word. -/
structure LedgerState.Coherent (s : LedgerState) : Prop where
  nodup : (s.balances.map Prod.fst).Nodup
  sum_eq : (s.balances.map Prod.snd).sum = s.totalSupply
  bounds : ∀ e ∈ s.balances, 0 ≤ e.2 ∧ e.2 ≤ s.totalSupply
  fits : s.totalSupply ≤ maxUint256

namespace Ledger

/-! ## What a sound ledger hands over -/

theorem Sound.toState {l : Ledger} (h : l.Sound) : l.toState.Coherent := by
  have hconserved : Table.sum id l.balances = l.supply := h.conserved
  constructor
  · show ((l.balances.map entry).map Prod.fst).Nodup
    rw [keys_entries]
    exact h.nodup.map (fun _ _ => Address.render_injective)
  · show ((l.balances.map entry).map Prod.snd).sum = (l.supply : Int)
    rw [sum_entries, hconserved]
  · intro e he
    obtain ⟨⟨a, n⟩, hmem, rfl⟩ := List.mem_map.1 he
    exact ⟨Int.natCast_nonneg n, Int.ofNat_le.2 (h.entry_le_supply hmem)⟩
  · exact Int.ofNat_le.2 h.fits

theorem Sound.isConserved {l : Ledger} (h : l.Sound) : l.isConserved = true :=
  beq_iff_eq.2 h.conserved

/-! ## Steps -/

namespace Step

variable {α : Type}

mutual
def named : Step α → List String
  | .credit t _ | .debit t _ => [t]
  | .atomically steps _ _ => allNamed steps
  | _ => []

def allNamed : List (Bool × Step α) → List String
  | [] => []
  | (_, step) :: rest => step.named ++ allNamed rest
end

/-- `P` holds of the ledger in use and of every ledger on record. -/
def Recorded (P : Ledger → Prop) (s : Session × List (Entry α)) : Prop :=
  s.1.Holds P ∧ ∀ e ∈ s.2, P e.ledger

/-- Crediting and debiting the accounts that texts in `Q` name keeps `P`. -/
structure Upholds (Q : String → Prop) (P : Ledger → Prop) : Prop where
  credit : ∀ {l t n m}, Q t → P l → Ledger.credit l t n = .ok m → P (l.apply m)
  debit : ∀ {l t n m}, Q t → P l → Ledger.debit l t n = .ok m → P (l.apply m)

variable {P : Ledger → Prop} {Q : String → Prop}

theorem Recorded.session {s : Session × List (Entry α)} (h : Recorded P s) {t : Session}
    (ht : t.Holds P) : Recorded P (t, s.2) := ⟨ht, h.2⟩

theorem keeps_record (name : String) (outcome : Except Failure (Answer α)) :
    Work.Keeps (Recorded P) (record name outcome) := by
  intro s hs
  refine ⟨hs.1, fun e he => ?_⟩
  have he : e ∈ s.2 ++ [⟨name, true, outcome, s.1.ledger⟩] := he
  rcases List.mem_append.1 he with he | he
  · exact hs.2 e he
  · rw [List.mem_singleton.1 he]
    exact hs.1.ledger

theorem keeps_query {β : Type} (f : Ledger → Except Cause β) :
    Work.Keeps (Recorded (α := α) P) (query f) :=
  Work.keeps_bind Work.keeps_ledger (fun _ => Work.keeps_check _)

/-- Starting over from the state handed over changes nothing but the unit that is open. -/
theorem keeps_reload : Work.Keeps (Recorded (α := α) P) Work.reload := by
  intro s hs
  have hreload : s.1.reload.2.Holds P := by
    rw [Session.reload]
    cases hl : ofState s.1.ledger.toState with
    | error c => exact hs.1
    | ok l =>
      rw [eq_of_ofState_toState hl]
      exact Session.holds_start hs.1.ledger
  exact hs.session hreload

theorem keeps_unit {β : Type} {w : Work (List (Entry α)) β} (hw : Work.Keeps (Recorded P) w) :
    Work.Keeps (Recorded P) w.atomically :=
  Work.keeps_atomically hw (fun _ _ h => h.session h.1.opened) (fun _ _ h => h.session h.1.commit)
    (fun _ _ h => h.session h.1.rollback)

mutual
theorem keeps_run (h : Upholds Q P) (step : Step α) (hnamed : ∀ t ∈ step.named, Q t) :
    Work.Keeps (Recorded P) (run step) := by
  cases step with
  | credit t n =>
    have ht : Q t := hnamed t (by rw [named]; exact List.mem_singleton_self t)
    refine Work.keeps_map _ (Work.keeps_move (fun s m hs hm => hs.session ?_))
    exact hs.1.move (h.credit ht hs.1.ledger hm)
  | debit t n =>
    have ht : Q t := hnamed t (by rw [named]; exact List.mem_singleton_self t)
    refine Work.keeps_map _ (Work.keeps_move (fun s m hs hm => hs.session ?_))
    exact hs.1.move (h.debit ht hs.1.ledger hm)
  | balanceOf t => exact Work.keeps_map _ (keeps_query _)
  | totalSupply => exact Work.keeps_map _ (keeps_query _)
  | accounts => exact Work.keeps_map _ (keeps_query _)
  | isConserved => exact Work.keeps_map _ (keeps_query _)
  | toState => exact Work.keeps_map _ (keeps_query _)
  | reload => exact Work.keeps_map _ keeps_reload
  | atomically steps fail value =>
    rw [named] at hnamed
    rw [run]
    have hsteps := keeps_runAll h steps hnamed
    exact keeps_unit (Work.keeps_bind hsteps (fun _ => Work.keeps_ofExcept _))

theorem keeps_runAll (h : Upholds Q P) (steps : List (Bool × Step α))
    (hnamed : ∀ t ∈ allNamed steps, Q t) : Work.Keeps (Recorded P) (runAll steps) := by
  cases steps with
  | nil => exact Work.keeps_pure ()
  | cons head rest =>
    obtain ⟨isCaught, step⟩ := head
    rw [allNamed] at hnamed
    have hstep := keeps_run h step (fun t ht => hnamed t (List.mem_append_left _ ht))
    have hrest := keeps_runAll h rest (fun t ht => hnamed t (List.mem_append_right _ ht))
    rw [runAll]
    refine Work.keeps_bind (Work.keeps_attempt hstep) (fun outcome => ?_)
    refine Work.keeps_bind (keeps_record _ _) (fun _ => ?_)
    split
    · exact Work.keeps_ofExcept _
    · exact hrest
end

/-! ## Scripts -/

/-- What the movements of a script keep holds at every point of it. -/
theorem runEach_holds (h : Upholds Q P) {steps : List (Step α)}
    (hnamed : ∀ step ∈ steps, ∀ t ∈ step.named, Q t) {s : Session} (hs : s.Holds P) :
    ∀ e ∈ runEach steps s, P e.ledger := by
  induction steps generalizing s with
  | nil => exact fun e he => absurd he List.not_mem_nil
  | cons step rest ih =>
    intro e he
    have hrun := keeps_run h step (hnamed step List.mem_cons_self) (s, [])
      ⟨hs, fun e he => absurd he List.not_mem_nil⟩
    rw [runEach] at he
    rcases hstep : run step (s, []) with ⟨outcome, t, es⟩
    rw [hstep] at he hrun
    rcases List.mem_append.1 he with he | he
    · exact hrun.2 e he
    · rcases List.mem_cons.1 he with rfl | he
      · exact hrun.1.ledger
      · exact ih (fun step hmem => hnamed step (List.mem_cons_of_mem _ hmem)) hrun.1 e he

theorem points_hold (h : Upholds Q P) {steps : List (Step α)}
    (hnamed : ∀ step ∈ steps, ∀ t ∈ step.named, Q t) {l₀ : Ledger} (hl₀ : P l₀) :
    ∀ l ∈ l₀ :: (runEach steps (.start l₀)).map Entry.ledger, P l := by
  intro l hl
  rcases List.mem_cons.1 hl with rfl | hl
  · exact hl₀
  · obtain ⟨e, he, rfl⟩ := List.mem_map.1 hl
    exact runEach_holds h hnamed (Session.holds_start hl₀) e he

theorem upholds_sound : Upholds (fun _ => True) Ledger.Sound :=
  ⟨fun _ hl hm => hl.credit hm, fun _ hl hm => hl.debit hm⟩

theorem runEach_sound (steps : List (Step α)) {s : Session} (hs : s.Sound) :
    ∀ e ∈ runEach steps s, e.ledger.Sound :=
  runEach_holds upholds_sound (fun _ _ _ _ => trivial) (Session.sound_iff_holds.1 hs)

/-- Whatever a script does to a new or a restored ledger, at every point of the script,
inside units and between them, the ledger is conserved and coherent. -/
theorem runEach_coherent (l₀ : Ledger) (hstart : l₀ = .empty ∨ ∃ s, ofState s = .ok l₀)
    (steps : List (Step α)) :
    ∀ l ∈ l₀ :: (runEach steps (.start l₀)).map Entry.ledger,
      l.isConserved = true ∧ l.toState.Coherent := by
  have hl₀ : l₀.Sound := by
    rcases hstart with rfl | ⟨s, hs⟩
    · exact sound_empty
    · exact sound_ofState hs
  intro l hl
  have hsound : l.Sound := by
    rcases List.mem_cons.1 hl with rfl | hl
    · exact hl₀
    · obtain ⟨e, he, rfl⟩ := List.mem_map.1 hl
      exact runEach_sound steps (Session.sound_start hl₀) e he
  exact ⟨hsound.isConserved, hsound.toState⟩

/-- A restored ledger, and a unit that catches the failure of a unit which has overdrawn an
account after a credit. -/
theorem runEach_coherent_caught :
    let a := "0x0000000000000000000000000000000000000001"
    let l₀ : Ledger := ⟨[(⟨1, by decide⟩, 5)], 5⟩
    let inner : Step Unit := .atomically [(false, .credit a 2), (false, .debit a 9)] none none
    let script := [.atomically [(true, inner), (true, .credit a (-1))] (some "stop") none]
    (l₀ = .empty ∨ ∃ s, ofState s = .ok l₀) ∧
      ∀ l ∈ l₀ :: (runEach script (.start l₀)).map Entry.ledger,
        l.isConserved = true ∧ l.toState.Coherent := by
  intro a l₀ inner script
  have hstart : l₀ = .empty ∨ ∃ s, ofState s = .ok l₀ := Or.inr ⟨⟨5, [(a, 5)]⟩, by decide +kernel⟩
  exact ⟨hstart, runEach_coherent l₀ hstart script⟩

end Step
end Ledger
end Interchain
