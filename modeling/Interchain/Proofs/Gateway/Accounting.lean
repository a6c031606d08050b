/-
What a simulated gateway keeps account of.

Each submission takes one entry in the log, and an accepted one takes the next nonce; `Booked` is
what every step of a trial keeps, as long as the gateway is not reset, and carries the induction
on the steps.  The log does nothing but record: a gateway that keeps none does the same as one
that does (`quiet_run`).
-/
import Interchain.Proofs.Gateway.Countdown

namespace Interchain

/-! ## One submission -/

def Submission.reply (s : Submission) : Reply :=
  if s.isAccepted then .accepted s.nonce
  else .rejected s.kind (SimulatedGateway.rejection s.kind)

namespace SimulatedGateway

variable {g : SimulatedGateway} {kind : SubmissionKind} {envelope : String} {d d' : Draws}
  {s : FaultSettings}

theorem submit_of_fails (h : g.settings.judge kind d = (true, s, d')) :
    g.submit kind envelope d = (.rejected kind (rejection kind),
      { g with settings := s }.record ⟨kind, envelope, -1, false⟩, d') := by
  rw [submit, h]

theorem submit_of_passes (h : g.settings.judge kind d = (false, s, d')) :
    g.submit kind envelope d = (.accepted g.nextNonce,
      { g with settings := s, nextNonce := g.nextNonce + 1 }.record
        ⟨kind, envelope, g.nextNonce, true⟩, d') := by
  rw [submit, h]

/-- The gateway as it is if it keeps no log. -/
def quiet (g : SimulatedGateway) : SimulatedGateway := { g with log := [], isRecording := false }

theorem quiet_record (g : SimulatedGateway) (s : Submission) : (g.record s).quiet = g.quiet := by
  rw [record]
  split
  · rfl
  · rfl

theorem quiet_submit (g : SimulatedGateway) (kind : SubmissionKind) (envelope : String)
    (d : Draws) : g.quiet.submit kind envelope d =
      ((g.submit kind envelope d).1, (g.submit kind envelope d).2.1.quiet,
        (g.submit kind envelope d).2.2) := by
  rcases h : g.settings.judge kind d with ⟨_ | _, s, d'⟩
  · rw [submit_of_passes h, submit_of_passes (g := g.quiet) h, quiet_record]
    rfl
  · rw [submit_of_fails h, submit_of_fails (g := g.quiet) h, quiet_record]
    rfl

end SimulatedGateway

/-! ## Trials -/

def TrialStep.submission? : TrialStep → Option (SubmissionKind × String)
  | .submit kind envelope => some (kind, envelope)
  | .configure _ => none

namespace Trial

variable {t : Trial} {submitted : List (SubmissionKind × String)}

/-- The trial as it is if its gateway keeps no log. -/
def quiet (t : Trial) : Trial := { t with gateway := t.gateway.quiet }

theorem quiet_step (t : Trial) (x : TrialStep) : t.quiet.step x = (t.step x).quiet := by
  cases x with
  | submit kind envelope =>
    have hsubmit : t.quiet.gateway.submit kind envelope t.quiet.draws = _ :=
      SimulatedGateway.quiet_submit t.gateway kind envelope t.draws
    show t.quiet.submit kind envelope = _
    rw [submit, hsubmit]
    rfl
  | configure command =>
    cases command with
    | enable | disable | failNextSubmissions | rejectKind | reset => rfl

theorem quiet_run (t : Trial) (steps : List TrialStep) :
    t.quiet.run steps = (t.run steps).quiet := by
  induction steps generalizing t with
  | nil => rfl
  | cons x steps ih =>
    show (t.quiet.step x).run steps = _
    rw [quiet_step, ih]
    rfl

structure Booked (t : Trial) (submitted : List (SubmissionKind × String)) : Prop where
  isRecording : t.gateway.isRecording = true
  submissions : t.gateway.log.map (fun s => (s.kind, s.envelope)) = submitted
  replies : t.gateway.log.map Submission.reply = t.replies
  accepted : (t.gateway.log.filter (·.isAccepted)).map (·.nonce) =
    (List.range t.gateway.nextNonce).map Int.ofNat
  rejected : ∀ s ∈ t.gateway.log, s.isAccepted = false → s.nonce = -1

theorem booked_start (d : Draws) : (start true d).Booked [] :=
  ⟨rfl, rfl, rfl, rfl, List.forall_mem_nil _⟩

theorem Booked.submit (h : t.Booked submitted) (kind : SubmissionKind) (envelope : String) :
    (t.submit kind envelope).Booked (submitted ++ [(kind, envelope)]) := by
  rcases hjudge : t.gateway.settings.judge kind t.draws with ⟨_ | _, s, d'⟩
  · rw [Trial.submit, SimulatedGateway.submit_of_passes hjudge, SimulatedGateway.record,
      if_pos h.isRecording]
    refine ⟨h.isRecording, ?_, ?_, ?_, ?_⟩
    · rw [List.map_append, h.submissions]
      rfl
    · rw [List.map_append, h.replies]
      rfl
    · rw [List.filter_append, List.map_append, h.accepted, List.range_succ, List.map_append]
      rfl
    · exact List.forall_mem_append.2
        ⟨h.rejected,
          List.forall_mem_singleton.2 (fun hfails => absurd hfails.symm Bool.false_ne_true)⟩
  · rw [Trial.submit, SimulatedGateway.submit_of_fails hjudge, SimulatedGateway.record,
      if_pos h.isRecording]
    refine ⟨h.isRecording, ?_, ?_, ?_, ?_⟩
    · rw [List.map_append, h.submissions]
      rfl
    · rw [List.map_append, h.replies]
      rfl
    · rw [List.filter_append, List.map_append, h.accepted]
      exact List.append_nil _
    · exact List.forall_mem_append.2 ⟨h.rejected, List.forall_mem_singleton.2 (fun _ => rfl)⟩

/-- Only a reset touches the books of a gateway. -/
theorem Booked.configure (h : t.Booked submitted) {command : FaultCommand}
    (hreset : command ≠ .reset) : (t.configure command).Booked submitted := by
  cases command with
  | enable | disable | failNextSubmissions | rejectKind =>
    exact ⟨h.isRecording, h.submissions, h.replies, h.accepted, h.rejected⟩
  | reset => exact absurd rfl hreset

theorem Booked.run (h : t.Booked submitted) {steps : List TrialStep}
    (hreset : .configure .reset ∉ steps) :
    (t.run steps).Booked (submitted ++ steps.filterMap TrialStep.submission?) := by
  induction steps generalizing t submitted with
  | nil => exact (List.append_nil submitted).symm ▸ h
  | cons x steps ih =>
    obtain ⟨hx, hsteps⟩ := not_or.1 (mt List.mem_cons.2 hreset)
    cases x with
    | submit kind envelope =>
      have hrest := ih (h.submit kind envelope) hsteps
      rw [List.append_assoc] at hrest
      exact hrest
    | configure command =>
      exact ih (h.configure (fun heq => hx (heq ▸ rfl))) hsteps

theorem Booked.nextNonce_eq (h : t.Booked submitted) :
    t.gateway.nextNonce = t.gateway.log.countP (·.isAccepted) := by
  have hlength := congrArg List.length h.accepted
  rw [List.length_map, List.length_map, List.length_range] at hlength
  rw [List.countP_eq_length_filter, hlength]

/-- A gateway that was configured and used in any way, but not reset, has one entry for each
submission, in their order, which tells the reply to it.  The accepted ones have the nonces from 0
on, as many as the next nonce says, and the rejected ones have -1.  Asked to fail the next `n`
submissions, where `n` is no greater than 2 ^ 53, it fails these without a look at the random
source, and each later one if its kind fails, or if the number drawn for it is below the rate.
From there on counts are rounded: for the next two numbers it fails one submission fewer in this
way, and for any greater one it fails all that follow.  A gateway without a log that is used in
the same way gives the same replies and draws the same numbers. -/
theorem run_accounts (d : Draws) (steps : List TrialStep) (hreset : .configure .reset ∉ steps) :
    let t := (start true d).run steps
    t.gateway.log.map (fun s => (s.kind, s.envelope)) = steps.filterMap TrialStep.submission? ∧
    t.gateway.log.map Submission.reply = t.replies ∧
    (t.gateway.log.filter (·.isAccepted)).map (·.nonce) =
      (List.range t.gateway.nextNonce).map Int.ofNat ∧
    (∀ s ∈ t.gateway.log, s.isAccepted = false → s.nonce = -1) ∧
    t.gateway.nextNonce = t.gateway.log.countP (·.isAccepted) ∧
    (∀ n ≤ Double.maxExact + 2, (t.configure (.failNextSubmissions (.ofNat n))).FailsBy
      (if n ≤ Double.maxExact then n else n - 1) t.gateway.settings.failKinds
        t.gateway.settings.failureRate) ∧
    (∀ n, Double.maxExact + 2 < n →
      ∀ k, (t.configure (.failNextSubmissions (.ofNat n))).FailsFirst k) ∧
    (start false d).run steps = t.quiet := by
  intro t
  have hbooked : t.Booked (steps.filterMap TrialStep.submission?) := (booked_start d).run hreset
  refine ⟨hbooked.submissions, hbooked.replies, hbooked.accepted, hbooked.rejected,
    hbooked.nextNonce_eq, fun n hn => ?_, fun n hn k => ?_, quiet_run (start true d) steps⟩
  · obtain ⟨hlasts, hover⟩ := Countdown.ends_ofNat hn
    exact failsBy_of_count rfl hlasts hover
  · exact failsFirst_of_lasts rfl (Countdown.lasts_forever hn k)

/-- A post that is accepted, one that a count fails, a get that its kind fails and a post that is
accepted again. -/
theorem run_accounts_mixed :
    let steps : List TrialStep := [.submit .post "0x01",
      .configure (.failNextSubmissions (.ofNat 1)), .submit .post "0x02",
      .configure (.rejectKind .get), .submit .get "0x03",
      .configure (.enable ⟨some 0.5, none, none⟩), .submit .post "0x04"]
    let t := (start true (.cycle [0.75])).run steps
    .configure .reset ∉ steps ∧ t.gateway.nextNonce = 2 ∧
      (t.gateway.log.filter (·.isAccepted)).map (·.nonce) = [0, 1] := by
  intro steps t
  have hreset : .configure .reset ∉ steps := by simp [steps]
  have hnonce : t.gateway.nextNonce = 2 := by decide +kernel
  obtain ⟨-, -, haccepted, -⟩ := run_accounts (.cycle [0.75]) steps hreset
  refine ⟨hreset, hnonce, ?_⟩
  rw [haccepted, hnonce]
  rfl

/-- Asked to fail the next 2 ^ 53 + 4 submissions, a gateway that fails nothing else fails the one
after them too. -/
theorem great_count_goes_on :
    let t := (start true (.cycle [])).configure (.failNextSubmissions (.ofNat (2 ^ 53 + 4)))
    t.gateway.settings.failKinds = [] ∧ ¬ 0 < t.gateway.settings.failureRate ∧
      (t.submitAll (List.replicate (2 ^ 53 + 4) (.post, "0x01"))).Fails .post "0x02" := by
  intro t
  have hlasts : (Countdown.ofNat (2 ^ 53 + 4)).Lasts (2 ^ 53 + 5) :=
    Countdown.lasts_forever (by decide) _
  have hfails : t.FailsFirst (2 ^ 53 + 5) := failsFirst_of_lasts rfl hlasts
  refine ⟨rfl, by decide, hfails.fails _ _ _ ?_⟩
  rw [List.length_replicate]
  exact Nat.lt_succ_self _

end Trial
end Interchain
