/-
Reasoning about work step by step.

`Sat w s Q E` says how `w` ends when it starts in `s`: with a value and a state of
which `Q` holds, or with a failure in a state of which `E` holds.  Each step of work
has one rule, and `Sat.atomically` discharges the journal: work that keeps
`Restores` up to its failure leaves, run as a unit, the ledger as it was.
-/
import Interchain.Proofs.Ledger.Journal
import Interchain.Proofs.Outcome

namespace Interchain
namespace Ledger
namespace Work

variable {ρ α β : Type} {s : Session × ρ} {E : Session × ρ → Prop}

theorem bind_apply (w : Work ρ α) (k : α → Work ρ β) (s : Session × ρ) :
    (w >>= k) s = match w s with
      | (.ok a, s) => k a s
      | (.error e, s) => (.error e, s) := by
  show (match w s with
    | (.ok a, s) => k a s
    | (.error e, s) => (.error e, s) : Except Failure β × Session × ρ) = _
  rcases w s with ⟨_ | a, s'⟩
  · rfl
  · rfl

def Sat (w : Work ρ α) (s : Session × ρ) (Q : α → Session × ρ → Prop) (E : Session × ρ → Prop) :
    Prop :=
  match w s with
  | (.ok a, s') => Q a s'
  | (.error _, s') => E s'

theorem Sat.of_ok {w : Work ρ α} {Q : α → Session × ρ → Prop} (h : w.Sat s Q E) {a : α}
    {s' : Session × ρ} (hw : w s = (.ok a, s')) : Q a s' := by
  rw [Sat, hw] at h
  exact h

theorem Sat.of_error {w : Work ρ α} {Q : α → Session × ρ → Prop} (h : w.Sat s Q E) {e : Failure}
    {s' : Session × ρ} (hw : w s = (.error e, s')) : E s' := by
  rw [Sat, hw] at h
  exact h

theorem sat_bind {w : Work ρ α} {f : α → Work ρ β} {Q : β → Session × ρ → Prop} :
    (w >>= f).Sat s Q E ↔ w.Sat s (fun a s' => (f a).Sat s' Q E) E := by
  rw [Sat, bind_apply, Sat]
  rcases w s with ⟨_ | a, s'⟩
  · exact Iff.rfl
  · exact Iff.rfl

theorem sat_ofExcept {r : Except Failure α} {Q : α → Session × ρ → Prop} (hE : E s)
    (hQ : ∀ a, r = .ok a → Q a s) : (ofExcept r).Sat s Q E := by
  cases r with
  | error e => exact hE
  | ok a => exact hQ a rfl

theorem sat_check {r : Except Cause α} {Q : α → Session × ρ → Prop} (hE : E s)
    (hQ : ∀ a, r = .ok a → Q a s) : (check r).Sat s Q E :=
  sat_ofExcept hE (fun a ha => hQ a (refuse_eq_ok.1 ha))

theorem sat_move {f : Ledger → Except Cause Movement} {Q : Nat → Session × ρ → Prop} (hE : E s)
    (hQ : ∀ m, f s.1.ledger = .ok m → Q m.balance (s.1.move m, s.2)) : (move f).Sat s Q E := by
  rw [Sat, move]
  cases h : f s.1.ledger with
  | error c => exact hE
  | ok m => exact hQ m h

/-! ## Steps that are known to succeed -/

theorem sat_ofExcept_ok {r : Except Failure α} {a : α} {Q : α → Session × ρ → Prop}
    (hr : r = .ok a) (hQ : Q a s) : (ofExcept r).Sat s Q E := by
  rw [hr]
  exact hQ

theorem sat_check_ok {r : Except Cause α} {a : α} {Q : α → Session × ρ → Prop}
    (hr : r = .ok a) (hQ : Q a s) : (check r).Sat s Q E :=
  sat_ofExcept_ok (refuse_eq_ok.2 hr) hQ

theorem sat_move_ok {f : Ledger → Except Cause Movement} {m : Movement}
    {Q : Nat → Session × ρ → Prop} (hm : f s.1.ledger = .ok m)
    (hQ : Q m.balance (s.1.move m, s.2)) : (move f).Sat s Q E := by
  rw [Sat, move, hm]
  exact hQ

/-! ## Units -/

/-- Work run as a unit of its own: it commits what it did, or gives the ledger back. -/
theorem sat_atomically {w : Work ρ α} {l : Ledger} {r : ρ} {Q : α → Session × ρ → Prop}
    {E : ρ → Prop}
    (h : w.Sat ((Session.start l).opened, r) (fun a s => Q a (s.1.commit, s.2))
      (fun s => s.1.Restores l ∧ E s.2)) :
    w.atomically.Sat (.start l, r) Q (fun s => s.1 = .start l ∧ E s.2) := by
  have hjournal : (Session.start l).journal = none := rfl
  rw [Sat] at h
  simp only [Sat, atomically, hjournal]
  rcases hw : w ((Session.start l).opened, r) with ⟨_ | a, t, r'⟩
  · rw [hw] at h
    exact ⟨h.1.rollback, h.2⟩
  · rw [hw] at h
    exact h

/-! ## Work that keeps a property -/

/-- Whether it succeeds or fails, the work leaves a state with the property if it found one. -/
def Keeps (P : Session × ρ → Prop) (w : Work ρ α) : Prop := ∀ s, P s → P (w s).2

section

variable {P : Session × ρ → Prop}

theorem keeps_bind {w : Work ρ α} {k : α → Work ρ β} (hw : Keeps P w) (hk : ∀ a, Keeps P (k a)) :
    Keeps P (w >>= k) := by
  intro s hs
  have hnext := hw s hs
  rw [bind_apply]
  rcases h : w s with ⟨_ | a, s'⟩
  · rw [h] at hnext
    exact hnext
  · rw [h] at hnext
    exact hk a s' hnext

theorem keeps_pure (a : α) : Keeps P (pure a) := fun _ hs => hs

theorem keeps_map {w : Work ρ α} (f : α → β) (hw : Keeps P w) : Keeps P (f <$> w) := by
  show Keeps P (w >>= fun a => pure (f a))
  exact keeps_bind hw (fun _ => keeps_pure _)

theorem keeps_ofExcept (r : Except Failure α) : Keeps P (ofExcept r) := fun _ hs => hs

theorem keeps_check (r : Except Cause α) : Keeps P (check r) := fun _ hs => hs

theorem keeps_ledger : Keeps P ledger := fun _ hs => hs

theorem keeps_move {f : Ledger → Except Cause Movement}
    (hf : ∀ s m, P s → f s.1.ledger = .ok m → P (s.1.move m, s.2)) : Keeps P (move f) := by
  intro s hs
  rw [move]
  cases h : f s.1.ledger with
  | error c => exact hs
  | ok m => exact hf s m hs h

theorem keeps_attempt {w : Work ρ α} (hw : Keeps P w) : Keeps P (attempt w) := fun s hs => hw s hs

/-- A unit keeps what its work keeps, if opening and ending a unit keep it too. -/
theorem keeps_atomically {w : Work ρ α} (hw : Keeps P w)
    (hopened : ∀ s r, P (s, r) → P (s.opened, r)) (hcommit : ∀ s r, P (s, r) → P (s.commit, r))
    (hrollback : ∀ s r, P (s, r) → P (s.rollback, r)) : Keeps P w.atomically := by
  intro s hs
  rw [atomically]
  cases s.1.journal with
  | some j => exact hw s hs
  | none =>
    have hend := hw (s.1.opened, s.2) (hopened _ _ hs)
    rcases h : w (s.1.opened, s.2) with ⟨_ | a, t, r⟩
    · rw [h] at hend
      exact hrollback t r hend
    · rw [h] at hend
      exact hcommit t r hend

end

/-! ## Work that fails in certain ways only -/

def Raises (P : Failure → Prop) (w : Work ρ α) : Prop := ∀ s f s', w s = (.error f, s') → P f

section

variable {P : Failure → Prop}

theorem Raises.mono {P' : Failure → Prop} {w : Work ρ α} (hw : Raises P w)
    (h : ∀ f, P f → P' f) : Raises P' w := fun s f s' hrun => h f (hw s f s' hrun)

theorem raises_bind {w : Work ρ α} {k : α → Work ρ β} (hw : Raises P w)
    (hk : ∀ a, Raises P (k a)) : Raises P (w >>= k) := by
  intro s f s' h
  rw [bind_apply] at h
  rcases hstep : w s with ⟨e | a, t⟩
  · rw [hstep] at h
    cases h
    exact hw s _ _ hstep
  · rw [hstep] at h
    exact hk a t f s' h

theorem raises_modify (g : ρ → ρ) : Raises P (modify g) := fun _ _ _ h => by cases h

theorem raises_check {r : Except Cause α} (hr : ∀ c, r = .error c → P (.ofCause c)) :
    Raises P (check r : Work ρ α) := by
  intro s f s' h
  cases r with
  | error c =>
    cases h
    exact hr c rfl
  | ok a => cases h

theorem raises_move {g : Ledger → Except Cause Movement}
    (hg : ∀ l c, g l = .error c → P (.ofCause c)) : Raises P (move g : Work ρ Nat) := by
  intro s f s' h
  rw [move] at h
  cases hmove : g s.1.ledger with
  | error c =>
    rw [hmove] at h
    cases h
    exact hg _ c hmove
  | ok m =>
    rw [hmove] at h
    cases h

end

/-! ## Work that follows other work

`w` follows `w'` along `f` if it runs as `w'` does once what it carries along is seen
through `f`.  What `f` leaves out is then no more than a record of the run. -/

variable {ρ' : Type} {f : ρ → ρ'}

def Follows (f : ρ → ρ') (w : Work ρ α) (w' : Work ρ' α) : Prop :=
  ∀ s, w' (s.1, f s.2) = ((w s).1, (w s).2.1, f (w s).2.2)

theorem follows_bind {w : Work ρ α} {w' : Work ρ' α} {k : α → Work ρ β} {k' : α → Work ρ' β}
    (hw : Follows f w w') (hk : ∀ a, Follows f (k a) (k' a)) :
    Follows f (w >>= k) (w' >>= k') := by
  intro s
  rw [bind_apply, bind_apply, hw s]
  rcases w s with ⟨_ | a, s'⟩
  · rfl
  · exact hk a s'

theorem follows_pure (a : α) : Follows f (pure a) (pure a) := fun _ => rfl

theorem follows_ofExcept (r : Except Failure α) : Follows f (ofExcept r) (ofExcept r) :=
  fun _ => rfl

theorem follows_check (r : Except Cause α) : Follows f (check r) (check r) := fun _ => rfl

theorem follows_modify {g : ρ → ρ} {g' : ρ' → ρ'} (h : ∀ r, g' (f r) = f (g r)) :
    Follows f (modify g) (modify g') := by
  intro s
  show (_, _, g' (f s.2)) = _
  rw [h]
  rfl

theorem follows_move (m : Ledger → Except Cause Movement) : Follows f (move m) (move m) := by
  intro s
  simp only [move]
  cases m s.1.ledger with
  | error c => rfl
  | ok n => rfl

theorem follows_atomically {w : Work ρ α} {w' : Work ρ' α} (hw : Follows f w w') :
    Follows f w.atomically w'.atomically := by
  intro s
  simp only [atomically]
  cases s.1.journal with
  | some j => exact hw s
  | none =>
    simp only
    rw [hw (s.1.opened, s.2)]
    rcases w (s.1.opened, s.2) with ⟨_ | a, t, r⟩
    · rfl
    · rfl

end Work
end Ledger
end Interchain
