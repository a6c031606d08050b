/-
What a disabled gateway remembers.

A gateway that is disabled forgets its count and its kinds but not its rate.  So it fails
nothing while it is off, and what is configured next works as on a new gateway exactly as far as
the last rate that was set lets it (`disable_failsBy`); `rate_outlasts_disable` shows the
difference.
-/
import Mathlib.Data.List.Induction
import Interchain.Proofs.Gateway.Countdown

namespace Interchain
namespace Trial

/-- The rate after a step: the last one that was set, and none when the gateway starts over. -/
def rateAfter (rate : Float) : TrialStep → Float
  | .configure (.enable change) => change.failureRate.getD rate
  | .configure .reset => 0
  | .configure .disable | .configure (.failNextSubmissions _) | .configure (.rejectKind _)
  | .submit _ _ => rate

def lastRate (steps : List TrialStep) : Float := steps.foldl rateAfter 0

theorem failureRate_step (t : Trial) (x : TrialStep) :
    (t.step x).gateway.settings.failureRate = rateAfter t.gateway.settings.failureRate x := by
  cases x with
  | submit kind envelope =>
    show (t.submit kind envelope).gateway.settings.failureRate = _
    rw [settings_submit, FaultSettings.failureRate_judge]
    rfl
  | configure command =>
    cases command with
    | enable | disable | failNextSubmissions | rejectKind | reset => rfl

theorem failureRate_run (isRecording : Bool) (d : Draws) (steps : List TrialStep) :
    ((start isRecording d).run steps).gateway.settings.failureRate = lastRate steps := by
  induction steps using List.reverseRecOn with
  | nil => rfl
  | append_singleton steps x ih =>
    rw [run, List.foldl_append, lastRate, List.foldl_append]
    show (((start isRecording d).run steps).step x).gateway.settings.failureRate =
      rateAfter (lastRate steps) x
    rw [failureRate_step, ih]

/-- A gateway that was configured and used in any way, and is then disabled, has the settings of
a new one but for the rate that was set last.  While it is off it fails nothing.  If so many
submissions are then to fail it fails these, and if a kind is then to fail it fails that kind; of
all other submissions it fails those for which the number drawn is below that rate, so that it
fails no other if that rate is not positive. -/
theorem disable_failsBy (isRecording : Bool) (d : Draws) (steps : List TrialStep) :
    let t := ((start isRecording d).run steps).configure .disable
    t.gateway.settings = { FaultSettings.off with failureRate := lastRate steps } ∧
    (∀ subs kind envelope, ¬ (t.submitAll subs).Fails kind envelope) ∧
    (∀ n, (t.configure (.failNextSubmissions (.ofNat n))).FailsFirst (min n Double.maxExact)) ∧
    (∀ n ≤ Double.maxExact,
      (t.configure (.failNextSubmissions (.ofNat n))).FailsBy n [] (lastRate steps)) ∧
    (∀ kind, (t.configure (.rejectKind kind)).FailsBy 0 [kind] (lastRate steps)) ∧
    (¬ 0 < lastRate steps →
      (∀ n ≤ Double.maxExact, ∀ subs kind envelope,
        ((t.configure (.failNextSubmissions (.ofNat n))).submitAll subs).Fails kind envelope ↔
          subs.length < n) ∧
      ∀ refused subs kind envelope,
        ((t.configure (.rejectKind refused)).submitAll subs).Fails kind envelope ↔
          kind = refused) := by
  intro t
  have hsettings : t.gateway.settings =
      { FaultSettings.off with failureRate := lastRate steps } := by
    rw [← failureRate_run isRecording d steps]
    rfl
  have hcount : ∀ n ≤ Double.maxExact,
      (t.configure (.failNextSubmissions (.ofNat n))).FailsBy n [] (lastRate steps) := by
    intro n hn
    rw [← failureRate_run isRecording d steps]
    exact failsBy_of_count rfl (Countdown.lasts_ofNat hn) (Countdown.over_ofNat hn)
  have hkind : ∀ kind, (t.configure (.rejectKind kind)).FailsBy 0 [kind] (lastRate steps) := by
    intro kind
    rw [← failureRate_run isRecording d steps]
    exact failsBy_of_count rfl (fun i hi => absurd hi (Nat.not_lt_zero i)) rfl
  have hoff : t.FailsBy 0 [] 0 := failsBy_of_off rfl
  refine ⟨hsettings, fun subs kind envelope hfails => ?_,
    fun n => failsFirst_of_lasts rfl (Countdown.lasts_min n), hcount, hkind,
    fun hrate => ⟨?_, ?_⟩⟩
  · rcases (hoff.of_rate (by decide) subs kind envelope).1 hfails with h | h
    · exact Nat.not_lt_zero _ h
    · cases h
  · intro n hn subs kind envelope
    rw [(hcount n hn).of_rate hrate subs kind envelope, or_iff_left List.not_mem_nil]
  · intro refused subs kind envelope
    rw [(hkind refused).of_rate hrate subs kind envelope, or_iff_right (Nat.not_lt_zero _),
      List.mem_singleton]

/-- A gateway that was to fail everything until its rate was set back, and that was disabled: asked
to fail two submissions it fails these alone. -/
theorem disable_failsBy_rated :
    let steps : List TrialStep := [.configure (.enable ⟨some 1, some [.get], some (.ofNat 3)⟩),
      .submit .post "0x", .configure (.enable ⟨some 0, none, none⟩)]
    let t := ((start true (.cycle [])).run steps).configure .disable
    ¬ 0 < lastRate steps ∧ 2 ≤ Double.maxExact ∧ ∀ subs kind envelope,
      ((t.configure (.failNextSubmissions (.ofNat 2))).submitAll subs).Fails kind envelope ↔
        subs.length < 2 := by
  intro steps t
  have hrate : ¬ 0 < lastRate steps := by decide
  have hcount : 2 ≤ Double.maxExact := by decide
  obtain ⟨-, -, -, -, -, hquiet⟩ := disable_failsBy true (.cycle []) steps
  exact ⟨hrate, hcount, (hquiet hrate).1 2 hcount⟩

/-- A gateway at which everything was to fail and that was disabled: asked to fail the next
submission it fails the one after that too, and asked to fail gets it fails a post. -/
theorem rate_outlasts_disable :
    let t := (start true (.cycle [])).run
      [.configure (.enable ⟨some 1, none, none⟩), .configure .disable]
    ((t.configure (.failNextSubmissions (.ofNat 1))).submitAll [(.post, "0x")]).Fails .post "0x" ∧
      (t.configure (.rejectKind .get)).Fails .post "0x" := by
  decide +kernel

end Trial
end Interchain
