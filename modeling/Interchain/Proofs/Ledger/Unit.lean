/-
What a unit of work means, told without its journal.

Run a script with every unit laid open, so that its steps simply follow one another
(`runBare`).  `run_unit` says that this decides everything about a unit that is begun
outside any other: what each step inside answers, how the unit ends, and what the ledger
is.  If the unit succeeds the ledger is the one that the bare run reaches, where a failed
inner unit that was caught has left what it did; if the unit fails the ledger is the one
that it found.  Either way no unit is open afterwards, and all that runs later has a
meaning without a journal too (`settleEach`).

`Work.Joins` relates work in an open unit to its bare run.  It carries `Restores` along,
which is what the failure of the whole unit needs in the end.
-/
import Interchain.Ledger.Script
import Interchain.Proofs.Ledger.Work

namespace Interchain
namespace Ledger

/-! ## Work in an open unit -/

namespace Work

variable {ρ α β : Type}

/-- In a unit that would go back to `l₀`, `w` does what `w'` does outside any unit, and the
unit would still go back to `l₀`. -/
def Joins (w w' : Work ρ α) : Prop :=
  ∀ (s : Session) (r : ρ) (l₀ : Ledger), s.Restores l₀ →
    ∃ outcome t r', w (s, r) = (outcome, t, r') ∧ t.Restores l₀ ∧
      w' (.start s.ledger, r) = (outcome, .start t.ledger, r')

theorem joins_ofExcept (x : Except Failure α) : Joins (ρ := ρ) (ofExcept x) (ofExcept x) :=
  fun s r _ hs => ⟨x, s, r, rfl, hs, rfl⟩

theorem joins_pure (a : α) : Joins (ρ := ρ) (pure a) (pure a) := joins_ofExcept (.ok a)

theorem joins_ledger : Joins (ρ := ρ) ledger ledger :=
  fun s r _ hs => ⟨.ok s.ledger, s, r, rfl, hs, rfl⟩

theorem joins_modify (f : ρ → ρ) : Joins (modify f) (modify f) :=
  fun s r _ hs => ⟨.ok (), s, f r, rfl, hs, rfl⟩

theorem joins_move (f : Ledger → Except Cause Movement) :
    Joins (ρ := ρ) (move f) (move f) := by
  intro s r l₀ hs
  have hstart : (Session.start s.ledger).ledger = s.ledger := rfl
  simp only [move, hstart]
  cases f s.ledger with
  | error c => exact ⟨_, s, r, rfl, hs, rfl⟩
  | ok m => exact ⟨_, s.move m, r, rfl, hs.move m, rfl⟩

theorem joins_bind {w w' : Work ρ α} {k k' : α → Work ρ β} (hw : Joins w w')
    (hk : ∀ a, Joins (k a) (k' a)) : Joins (w >>= k) (w' >>= k') := by
  intro s r l₀ hs
  obtain ⟨outcome, t, r', h, ht, h'⟩ := hw s r l₀ hs
  rw [bind_apply, bind_apply, h, h']
  cases outcome with
  | error f => exact ⟨.error f, t, r', rfl, ht, rfl⟩
  | ok a => exact hk a t r' l₀ ht

theorem joins_map (f : α → β) {w w' : Work ρ α} (hw : Joins w w') :
    Joins (f <$> w) (f <$> w') := by
  show Joins (w >>= fun a => pure (f a)) (w' >>= fun a => pure (f a))
  exact joins_bind hw (fun _ => joins_pure _)

theorem joins_attempt {w w' : Work ρ α} (hw : Joins w w') : Joins (attempt w) (attempt w') := by
  intro s r l₀ hs
  obtain ⟨outcome, t, r', h, ht, h'⟩ := hw s r l₀ hs
  refine ⟨.ok outcome, t, r', ?_, ht, ?_⟩
  · rw [attempt, h]
  · rw [attempt, h']

/-- A unit inside another is its bare work. -/
theorem joins_atomically {w w' : Work ρ α} (hw : Joins w w') : Joins w.atomically w' := by
  intro s r l₀ hs
  have hrun : w.atomically (s, r) = w (s, r) := by
    obtain ⟨j, hj, -⟩ := hs
    rw [atomically, hj]
  rw [hrun]
  exact hw s r l₀ hs

/-- A unit begun outside any other ends as its bare work does.  It leaves the ledger that
the work reached if it succeeds, and the one that it found if it fails. -/
theorem Joins.atomically_start {w w' : Work ρ α} (hw : Joins w w') (l : Ledger) (r : ρ) :
    ∃ outcome t r', w ((Session.start l).opened, r) = (outcome, t, r') ∧
      w' (.start l, r) = (outcome, .start t.ledger, r') ∧
      w.atomically (.start l, r) =
        (outcome, .start (if outcome.isOk then t.ledger else l), r') := by
  have hopened : (Session.start l).opened.Restores l := Session.restores_opened (.start l)
  obtain ⟨outcome, t, r', h, ht, h'⟩ := hw _ r l hopened
  refine ⟨outcome, t, r', h, h', ?_⟩
  have hjournal : (Session.start l).journal = none := rfl
  simp only [atomically, hjournal, h]
  cases outcome with
  | ok a => rfl
  | error f =>
    show (Except.error f, t.rollback, r') = (Except.error f, Session.start l, r')
    rw [ht.rollback]

/-! ## Work outside any unit -/

/-- Outside any unit `w` ends as `w'` does, leaves no unit open, and leaves the ledger that
`w'` reached if it succeeds and the one that it found if it fails. -/
def Settles (w w' : Work ρ α) : Prop :=
  ∀ (l : Ledger) (r : ρ), ∃ outcome l' r', w' (.start l, r) = (outcome, .start l', r') ∧
    w (.start l, r) = (outcome, .start (if outcome.isOk then l' else l), r')

theorem settles_move (f : Ledger → Except Cause Movement) :
    Settles (ρ := ρ) (move f) (move f) := by
  intro l r
  have hstart : (Session.start l).ledger = l := rfl
  simp only [move, hstart]
  cases f l with
  | error c => exact ⟨_, l, r, rfl, rfl⟩
  | ok m => exact ⟨_, l.apply m, r, rfl, rfl⟩

theorem settles_map (f : α → β) {w w' : Work ρ α} (hw : Settles w w') :
    Settles (f <$> w) (f <$> w') := by
  show Settles (w >>= fun a => pure (f a)) (w' >>= fun a => pure (f a))
  intro l r
  obtain ⟨outcome, l', r', h', h⟩ := hw l r
  rw [bind_apply, bind_apply, h, h']
  cases outcome with
  | error e => exact ⟨.error e, l', r', rfl, rfl⟩
  | ok a => exact ⟨.ok (f a), l', r', rfl, rfl⟩

theorem Joins.settles {w w' : Work ρ α} (hw : Joins w w') : Settles w.atomically w' := by
  intro l r
  obtain ⟨outcome, t, r', -, h', h⟩ := hw.atomically_start l r
  exact ⟨outcome, t.ledger, r', h', h⟩

end Work

namespace Step

variable {α : Type}

/-! ## Scripts laid open -/

mutual
/-- Whether a step, or a step inside it, starts over from the state handed over.  There is
then another ledger in use, which no unit that is open knows of. -/
def reloads : Step α → Bool
  | .reload => true
  | .atomically steps _ _ => anyReloads steps
  | _ => false

def anyReloads : List (Bool × Step α) → Bool
  | [] => false
  | (_, step) :: rest => step.reloads || anyReloads rest
end

mutual
/-- Runs a step with every unit replaced by its bare steps. -/
def runBare : Step α → Work (List (Entry α)) (Answer α)
  | .atomically steps fail value => do
    runAllBare steps
    Work.ofExcept (finish fail value)
  | step => run step

def runAllBare : List (Bool × Step α) → Work (List (Entry α)) Unit
  | [] => pure ()
  | (isCaught, step) :: rest => do
    let outcome ← Work.attempt (runBare step)
    record step.name outcome
    match outcome, isCaught with
    | .error f, false => Work.ofExcept (.error f)
    | _, _ => runAllBare rest
end

def body (steps : List (Bool × Step α)) (fail : Option String) (value : Option α) :
    Work (List (Entry α)) (Answer α) := do
  runAll steps
  Work.ofExcept (finish fail value)

theorem run_atomically (steps : List (Bool × Step α)) (fail : Option String) (value : Option α) :
    run (.atomically steps fail value) = (body steps fail value).atomically := by
  rw [run]
  rfl

theorem joins_record (name : String) (outcome : Except Failure (Answer α)) :
    Work.Joins (record name outcome) (record name outcome) :=
  Work.joins_bind Work.joins_ledger (fun _ => Work.joins_modify _)

theorem joins_query {β : Type} (f : Ledger → Except Cause β) :
    Work.Joins (query (α := α) f) (query f) :=
  Work.joins_bind Work.joins_ledger (fun _ => Work.joins_ofExcept _)

mutual
theorem joins_run (step : Step α) (hstep : step.reloads = false) :
    Work.Joins (run step) (runBare step) := by
  cases step with
  | credit t n => exact Work.joins_map _ (Work.joins_move _)
  | debit t n => exact Work.joins_map _ (Work.joins_move _)
  | balanceOf t => exact Work.joins_map _ (joins_query _)
  | totalSupply => exact Work.joins_map _ (joins_query _)
  | accounts => exact Work.joins_map _ (joins_query _)
  | isConserved => exact Work.joins_map _ (joins_query _)
  | toState => exact Work.joins_map _ (joins_query _)
  | reload => rw [reloads] at hstep; cases hstep
  | atomically steps fail value =>
    rw [reloads] at hstep
    rw [run, runBare]
    exact Work.joins_atomically
      (Work.joins_bind (joins_runAll steps hstep) (fun _ => Work.joins_ofExcept _))

theorem joins_runAll (steps : List (Bool × Step α)) (hsteps : anyReloads steps = false) :
    Work.Joins (runAll steps) (runAllBare steps) := by
  cases steps with
  | nil => exact Work.joins_pure ()
  | cons head rest =>
    obtain ⟨isCaught, step⟩ := head
    rw [anyReloads, Bool.or_eq_false_iff] at hsteps
    have hrest := joins_runAll rest hsteps.2
    rw [runAll, runAllBare]
    refine Work.joins_bind (Work.joins_attempt (joins_run step hsteps.1)) (fun outcome => ?_)
    refine Work.joins_bind (joins_record _ _) (fun _ => ?_)
    cases outcome with
    | ok a => exact hrest
    | error f =>
      cases isCaught with
      | false => exact Work.joins_ofExcept _
      | true => exact hrest
end

theorem joins_body {steps : List (Bool × Step α)} (hsteps : anyReloads steps = false)
    (fail : Option String) (value : Option α) :
    Work.Joins (body steps fail value) (runBare (.atomically steps fail value)) := by
  rw [runBare]
  exact Work.joins_bind (joins_runAll steps hsteps) (fun _ => Work.joins_ofExcept _)

/-! ## Steps outside any unit -/

/-- What a step outside any unit comes to: its bare run decides, and a step that fails
leaves the ledger that it found. -/
def settle (step : Step α) (l : Ledger) : Except Failure (Answer α) × Ledger × List (Entry α) :=
  match runBare step (.start l, []) with
  | (.ok a, t, es) => (.ok a, t.ledger, es)
  | (.error f, _, es) => (.error f, l, es)

def settleEach : List (Step α) → Ledger → List (Entry α)
  | [], _ => []
  | step :: rest, l =>
    match settle step l with
    | (outcome, l, es) => es ++ ⟨step.name, false, outcome, l⟩ :: settleEach rest l

theorem settles_query {β : Type} (f : Ledger → Except Cause β) :
    Work.Settles (query (α := α) f) (query f) := by
  intro l es
  refine ⟨refuse (f l), l, es, rfl, ?_⟩
  show (refuse (f l), Session.start l, es) = _
  rw [ite_self]

theorem settles_run (step : Step α) (hstep : step.reloads = false) :
    Work.Settles (run step) (runBare step) := by
  cases step with
  | credit t n => exact Work.settles_map _ (Work.settles_move _)
  | debit t n => exact Work.settles_map _ (Work.settles_move _)
  | balanceOf t => exact Work.settles_map _ (settles_query _)
  | totalSupply => exact Work.settles_map _ (settles_query _)
  | accounts => exact Work.settles_map _ (settles_query _)
  | isConserved => exact Work.settles_map _ (settles_query _)
  | toState => exact Work.settles_map _ (settles_query _)
  | reload => rw [reloads] at hstep; cases hstep
  | atomically steps fail value =>
    rw [reloads] at hstep
    rw [run_atomically]
    exact (joins_body hstep fail value).settles

theorem run_start {step : Step α} (hstep : step.reloads = false) (l : Ledger) :
    run step (.start l, []) =
      ((settle step l).1, .start (settle step l).2.1, (settle step l).2.2) := by
  obtain ⟨outcome, l', es, hbare, hrun⟩ := settles_run step hstep l []
  rw [hrun, settle, hbare]
  cases outcome with
  | ok a => rfl
  | error f => rfl

/-- Steps outside any unit, whose units keep their journals, come to what they come to
without them. -/
theorem runEach_start {steps : List (Step α)} (hsteps : ∀ step ∈ steps, step.reloads = false)
    (l : Ledger) : runEach steps (.start l) = settleEach steps l := by
  induction steps generalizing l with
  | nil => rfl
  | cons step rest ih =>
    rw [runEach, run_start (hsteps step List.mem_cons_self) l, settleEach]
    simp only
    rw [ih (fun s hs => hsteps s (List.mem_cons_of_mem _ hs))]
    rfl

/-! ## Units -/

/-- A unit begun outside any other ends as its work does, and every step inside answers as
it does with all units laid open.  The unit leaves the ledger of the bare run if it
succeeds and the one that it found if it fails.  No unit is open then, so that whatever
runs later comes to what it would on that ledger without any journal: a unit that fails
gives back the ledger that it found itself. -/
theorem run_unit (l : Ledger) (es : List (Entry α)) (steps : List (Bool × Step α))
    (fail : Option String) (value : Option α) (hsteps : anyReloads steps = false) :
    ∃ outcome t es',
      body steps fail value ((Session.start l).opened, es) = (outcome, t, es') ∧
      runBare (.atomically steps fail value) (.start l, es) = (outcome, .start t.ledger, es') ∧
      run (.atomically steps fail value) (.start l, es) =
        (outcome, .start (if outcome.isOk then t.ledger else l), es') ∧
      ∀ later : List (Step α), (∀ step ∈ later, step.reloads = false) →
        runEach later (run (.atomically steps fail value) (.start l, es)).2.1 =
          settleEach later (if outcome.isOk then t.ledger else l) := by
  obtain ⟨outcome, t, es', hbody, hbare, hrun⟩ :=
    (joins_body hsteps fail value).atomically_start l es
  rw [← run_atomically] at hrun
  refine ⟨outcome, t, es', hbody, hbare, hrun, fun later hlater => ?_⟩
  rw [hrun]
  exact runEach_start hlater _

/-- Of an inner unit that fails after a credit and is caught, the credit stays. -/
theorem run_unit_caught :
    let a := "0x0000000000000000000000000000000000000001"
    let inner : Step Unit := .atomically [(false, .credit a 2), (false, .debit a 9)] none none
    let steps := [(true, inner), (false, .credit a 1)]
    anyReloads steps = false ∧
      (run (.atomically steps none none) (.start .empty, [])).2.1 =
        .start ⟨[(⟨1, by decide⟩, 3)], 3⟩ := by
  intro a inner steps
  have hsteps : anyReloads steps = false := rfl
  obtain ⟨outcome, t, es, -, hbare, hrun, -⟩ := run_unit .empty [] steps none none hsteps
  have hok : (runBare (.atomically steps none none) (.start .empty, [])).1.isOk = true := by
    decide +kernel
  have hledger : (runBare (.atomically steps none none) (.start .empty, [])).2.1.ledger =
      ⟨[(⟨1, by decide⟩, 3)], 3⟩ := by decide +kernel
  rw [hbare] at hok hledger
  have ht : t.ledger = ⟨[(⟨1, by decide⟩, 3)], 3⟩ := hledger
  refine ⟨hsteps, ?_⟩
  rw [hrun]
  show Session.start (if outcome.isOk then t.ledger else .empty) = _
  rw [if_pos hok, ht]

end Step
end Ledger
end Interchain
