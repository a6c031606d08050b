/-
What a simulated gateway fails.

A gateway is configured and handed submissions in any order; `Trial` keeps its random source and
its replies beside it.  From any moment on, and until it is configured again, it fails
submissions by a schedule of three parts (`FailsBy`): so many submissions whatever their kind,
then every submission of certain kinds, and of the others those for which the number drawn is
below a rate.  `failsBy_of_count` reads the schedule off the settings; the induction is on the
submissions handed in, and how long the count stays positive (`Countdown.Lasts`) carries it.
-/
import Mathlib.Logic.Function.Iterate
import Interchain.Gateway.Simulated

namespace Interchain

/-! ## Counts -/

namespace Countdown

variable {c : Countdown} {n i k : Nat}

def Lasts (c : Countdown) (n : Nat) : Prop := ∀ i < n, (pred^[i] c).isPositive = true

theorem Lasts.isPositive (h : c.Lasts (n + 1)) : c.isPositive = true := h 0 (Nat.succ_pos n)

theorem Lasts.pred (h : c.Lasts (n + 1)) : c.pred.Lasts n := fun i hi =>
  h (i + 1) (Nat.succ_lt_succ hi)

theorem Lasts.of_le (h : c.Lasts n) (hk : k ≤ n) : c.Lasts k := fun i hi =>
  h i (Nat.lt_of_lt_of_le hi hk)

theorem iterate_pred_ofNat (hn : n ≤ Double.maxExact) (hi : i ≤ n) :
    pred^[i] (ofNat n) = ofNat (n - i) := by
  induction i with
  | zero => rfl
  | succ i ih =>
    have hstep : n - i = n - (i + 1) + 1 := by omega
    rw [Function.iterate_succ_apply', ih (Nat.le_of_succ_le hi), hstep, pred_ofNat (by omega)]

theorem lasts_ofNat (hn : n ≤ Double.maxExact) : (ofNat n).Lasts n := by
  intro i hi
  have hleft : 0 < n - i := Nat.sub_pos_of_lt hi
  rw [iterate_pred_ofNat hn (Nat.le_of_lt hi), isPositive_ofNat (by omega), decide_eq_true hleft]

theorem over_ofNat (hn : n ≤ Double.maxExact) : (pred^[n] (ofNat n)).isPositive = false := by
  rw [iterate_pred_ofNat hn (Nat.le_refl n), Nat.sub_self]
  rfl

end Countdown

/-! ## Judging one submission -/

namespace FaultSettings

variable {s : FaultSettings} {kind : SubmissionKind} {d : Draws}

/-- The next number drawn would fail a submission at this rate. -/
def Unlucky (rate : Float) (d : Draws) : Prop := 0 < rate ∧ d.next.1 < rate

/-- The settings after the count has failed so many submissions. -/
def spent (s : FaultSettings) (n : Nat) : FaultSettings :=
  { s with failNext := Countdown.pred^[n] s.failNext }

theorem judge_of_off (hoff : s.isEnabled = false) (kind : SubmissionKind) (d : Draws) :
    s.judge kind d = (false, s, d) := by
  rw [judge, hoff]
  rfl

/-- A count that is positive fails anything, without a look at the random source. -/
theorem judge_of_positive (hon : s.isEnabled = true) (hcount : s.failNext.isPositive = true)
    (kind : SubmissionKind) (d : Draws) :
    s.judge kind d = (true, { s with failNext := s.failNext.pred }, d) := by
  rw [judge, hon, if_neg (by decide), if_pos hcount]

/-- Once the count is over, the kind decides, and for the other kinds the number drawn. -/
theorem judge_of_over (hon : s.isEnabled = true) (hcount : s.failNext.isPositive = false)
    (kind : SubmissionKind) (d : Draws) :
    ((s.judge kind d).1 = true ↔ kind ∈ s.failKinds ∨ Unlucky s.failureRate d) ∧
      (s.judge kind d).2.1 = s ∧
      (s.judge kind d).2.2 = if kind ∉ s.failKinds ∧ 0 < s.failureRate then d.next.2 else d := by
  have hnot : ¬ s.failNext.isPositive = true := Bool.eq_false_iff.1 hcount
  rw [judge, hon, if_neg (by decide), if_neg hnot]
  by_cases hkind : kind ∈ s.failKinds
  · rw [if_pos (List.contains_iff_mem.2 hkind), if_neg (fun h => h.1 hkind)]
    exact ⟨iff_of_true rfl (Or.inl hkind), rfl, rfl⟩
  · rw [if_neg (fun h => hkind (List.contains_iff_mem.1 h))]
    by_cases hrate : 0 < s.failureRate
    · rw [if_pos hrate, if_pos ⟨hkind, hrate⟩]
      refine ⟨⟨fun h => Or.inr ⟨hrate, of_decide_eq_true h⟩, ?_⟩, rfl, rfl⟩
      rintro (h | ⟨-, h⟩)
      · exact absurd h hkind
      · exact decide_eq_true h
    · rw [if_neg hrate, if_neg (fun h => hrate h.2)]
      refine ⟨iff_of_false Bool.false_ne_true ?_, rfl, rfl⟩
      rintro (h | ⟨h, -⟩)
      · exact hkind h
      · exact hrate h

theorem failureRate_judge (s : FaultSettings) (kind : SubmissionKind) (d : Draws) :
    (s.judge kind d).2.1.failureRate = s.failureRate := by
  cases hon : s.isEnabled with
  | false => rw [judge_of_off hon]
  | true =>
    cases hcount : s.failNext.isPositive with
    | true => rw [judge_of_positive hon hcount]
    | false => rw [(judge_of_over hon hcount kind d).2.1]

end FaultSettings

/-! ## One submission -/

namespace SimulatedGateway

variable (g : SimulatedGateway) (kind : SubmissionKind) (envelope : String) (d : Draws)

theorem reply_submit : (g.submit kind envelope d).1 =
    if (g.settings.judge kind d).1 then .rejected kind (rejection kind)
    else .accepted g.nextNonce := by
  rw [submit]
  rcases g.settings.judge kind d with ⟨_ | _, s, d'⟩
  · rfl
  · rfl

theorem settings_record (s : Submission) : (g.record s).settings = g.settings := by
  rw [record]
  split
  · rfl
  · rfl

theorem settings_submit :
    (g.submit kind envelope d).2.1.settings = (g.settings.judge kind d).2.1 := by
  rw [submit]
  rcases g.settings.judge kind d with ⟨_ | _, s, d'⟩
  · exact settings_record _ _
  · exact settings_record _ _

theorem draws_submit : (g.submit kind envelope d).2.2 = (g.settings.judge kind d).2.2 := by
  rw [submit]
  rcases g.settings.judge kind d with ⟨_ | _, s, d'⟩
  · rfl
  · rfl

end SimulatedGateway

/-! ## Trials -/

inductive FaultCommand
  | enable (change : FaultSettings.Change)
  | disable
  | failNextSubmissions (count : Countdown)
  | rejectKind (kind : SubmissionKind)
  | reset

def FaultCommand.apply (g : SimulatedGateway) : FaultCommand → SimulatedGateway
  | .enable change => g.enable change
  | .disable => g.disable
  | .failNextSubmissions count => g.failNextSubmissions count
  | .rejectKind kind => g.rejectKind kind
  | .reset => g.reset

inductive TrialStep
  | submit (kind : SubmissionKind) (envelope : String)
  | configure (command : FaultCommand)

/-- A simulated gateway with its random source and the replies that it gave, the oldest first. -/
structure Trial where
  gateway : SimulatedGateway
  draws : Draws
  replies : List Reply

namespace Trial

def start (isRecording : Bool) (d : Draws) : Trial := ⟨.new isRecording, d, []⟩

def submit (t : Trial) (kind : SubmissionKind) (envelope : String) : Trial :=
  match t.gateway.submit kind envelope t.draws with
  | (reply, g, d) => ⟨g, d, t.replies ++ [reply]⟩

def configure (t : Trial) (command : FaultCommand) : Trial :=
  { t with gateway := command.apply t.gateway }

def step (t : Trial) : TrialStep → Trial
  | .submit kind envelope => t.submit kind envelope
  | .configure command => t.configure command

def run (t : Trial) (steps : List TrialStep) : Trial := steps.foldl step t

def submitAll (t : Trial) (subs : List (SubmissionKind × String)) : Trial :=
  subs.foldl (fun t s => t.submit s.1 s.2) t

def Fails (t : Trial) (kind : SubmissionKind) (envelope : String) : Prop :=
  (t.gateway.submit kind envelope t.draws).1.isAccepted = false

instance (t : Trial) (kind : SubmissionKind) (envelope : String) :
    Decidable (t.Fails kind envelope) :=
  inferInstanceAs (Decidable (_ = false))

variable {t : Trial} {kind : SubmissionKind} {envelope : String} {n : Nat}

theorem fails_iff : t.Fails kind envelope ↔ (t.gateway.settings.judge kind t.draws).1 = true := by
  rw [Fails, SimulatedGateway.reply_submit]
  cases (t.gateway.settings.judge kind t.draws).1 with
  | true => exact iff_of_true rfl rfl
  | false => exact iff_of_false Bool.noConfusion Bool.noConfusion

theorem settings_submit (t : Trial) (kind : SubmissionKind) (envelope : String) :
    (t.submit kind envelope).gateway.settings = (t.gateway.settings.judge kind t.draws).2.1 :=
  t.gateway.settings_submit kind envelope t.draws

theorem draws_submit (t : Trial) (kind : SubmissionKind) (envelope : String) :
    (t.submit kind envelope).draws = (t.gateway.settings.judge kind t.draws).2.2 :=
  t.gateway.draws_submit kind envelope t.draws

theorem submitAll_concat (t : Trial) (subs : List (SubmissionKind × String))
    (s : SubmissionKind × String) :
    t.submitAll (subs ++ [s]) = (t.submitAll subs).submit s.1 s.2 := by
  rw [submitAll, List.foldl_append]
  rfl

/-! ## Schedules -/

/-- The next `n` submissions fail, whatever their kind, and draw no random number. -/
structure FailsFirst (t : Trial) (n : Nat) : Prop where
  fails : ∀ subs kind envelope, subs.length < n → (t.submitAll subs).Fails kind envelope
  undrawn : ∀ subs, subs.length ≤ n → (t.submitAll subs).draws = t.draws

/-- From now on, and until it is configured again, the gateway fails `n` submissions whatever
their kind.  After that it fails those of the kinds `kinds`, and of the others those for which
the number drawn is below `rate`.  A number is drawn for the others only, and only if the rate is
positive. -/
structure FailsBy (t : Trial) (n : Nat) (kinds : List SubmissionKind) (rate : Float) : Prop
    extends t.FailsFirst n where
  later : ∀ subs kind envelope, n ≤ subs.length →
    ((t.submitAll subs).Fails kind envelope ↔
      kind ∈ kinds ∨ FaultSettings.Unlucky rate (t.submitAll subs).draws)
  drawn : ∀ subs kind envelope, n ≤ subs.length →
    (t.submitAll (subs ++ [(kind, envelope)])).draws =
      if kind ∉ kinds ∧ 0 < rate then (t.submitAll subs).draws.next.2
      else (t.submitAll subs).draws

/-- The settings of a gateway that is on, and what it draws, after some submissions: while the
count lasts it goes down by one each time and nothing is drawn. -/
theorem submitAll_of_lasts (hon : t.gateway.settings.isEnabled = true)
    (subs : List (SubmissionKind × String)) (h : t.gateway.settings.failNext.Lasts subs.length) :
    (t.submitAll subs).gateway.settings = t.gateway.settings.spent subs.length ∧
      (t.submitAll subs).draws = t.draws := by
  induction subs generalizing t with
  | nil => exact ⟨rfl, rfl⟩
  | cons s subs ih =>
    have hjudge := FaultSettings.judge_of_positive hon h.isPositive s.1 t.draws
    have hsettings : (t.submit s.1 s.2).gateway.settings = t.gateway.settings.spent 1 := by
      rw [settings_submit, hjudge]
      rfl
    have hdraws : (t.submit s.1 s.2).draws = t.draws := by
      rw [draws_submit, hjudge]
    have hrest := ih (t := t.submit s.1 s.2) (by rw [hsettings]; exact hon)
      (by rw [hsettings]; exact h.pred)
    rw [hsettings, hdraws] at hrest
    exact hrest

/-- Once the count is over, submissions leave the settings alone. -/
theorem submitAll_of_over (hon : t.gateway.settings.isEnabled = true)
    (hcount : t.gateway.settings.failNext.isPositive = false)
    (subs : List (SubmissionKind × String)) :
    (t.submitAll subs).gateway.settings = t.gateway.settings := by
  induction subs generalizing t with
  | nil => rfl
  | cons s subs ih =>
    have hsettings : (t.submit s.1 s.2).gateway.settings = t.gateway.settings := by
      rw [settings_submit, (FaultSettings.judge_of_over hon hcount s.1 t.draws).2.1]
    rw [← hsettings] at hon hcount
    exact (ih hon hcount).trans hsettings

/-- A gateway that is off draws nothing, and submissions leave its settings alone. -/
theorem submitAll_of_off (hoff : t.gateway.settings.isEnabled = false)
    (subs : List (SubmissionKind × String)) :
    (t.submitAll subs).gateway.settings = t.gateway.settings ∧
      (t.submitAll subs).draws = t.draws := by
  induction subs generalizing t with
  | nil => exact ⟨rfl, rfl⟩
  | cons s subs ih =>
    have hjudge := FaultSettings.judge_of_off hoff s.1 t.draws
    have hsettings : (t.submit s.1 s.2).gateway.settings = t.gateway.settings := by
      rw [settings_submit, hjudge]
    have hdraws : (t.submit s.1 s.2).draws = t.draws := by
      rw [draws_submit, hjudge]
    have hrest := ih (t := t.submit s.1 s.2) (by rw [hsettings]; exact hoff)
    rw [hsettings, hdraws] at hrest
    exact hrest

theorem failsFirst_of_lasts (hon : t.gateway.settings.isEnabled = true)
    (hlasts : t.gateway.settings.failNext.Lasts n) : t.FailsFirst n := by
  have hcounting : ∀ subs : List (SubmissionKind × String), subs.length ≤ n → _ := fun subs h =>
    submitAll_of_lasts hon subs (fun i hi => hlasts i (Nat.lt_of_lt_of_le hi h))
  refine ⟨fun subs kind envelope h => ?_, fun subs h => (hcounting subs h).2⟩
  have hjudge := FaultSettings.judge_of_positive (s := t.gateway.settings.spent subs.length) hon
    (hlasts _ h) kind (t.submitAll subs).draws
  rw [fails_iff, (hcounting subs (Nat.le_of_lt h)).1, hjudge]

/-- A gateway that is on and whose count is over after `n` submissions fails by the schedule of
its settings. -/
theorem failsBy_of_count (hon : t.gateway.settings.isEnabled = true)
    (hlasts : t.gateway.settings.failNext.Lasts n)
    (hover : (Countdown.pred^[n] t.gateway.settings.failNext).isPositive = false) :
    t.FailsBy n t.gateway.settings.failKinds t.gateway.settings.failureRate := by
  -- after `n` submissions the settings stay as they are, and each submission is one judgement
  have hsettled : ∀ subs : List (SubmissionKind × String), n ≤ subs.length →
      (t.submitAll subs).gateway.settings = t.gateway.settings.spent n := by
    intro subs h
    have htake : (subs.take n).length = n := List.length_take_of_le h
    have hcounted := (submitAll_of_lasts hon (subs.take n) (by rw [htake]; exact hlasts)).1
    rw [htake] at hcounted
    have hrest := submitAll_of_over (t := t.submitAll (subs.take n)) (by rw [hcounted]; exact hon)
      (by rw [hcounted]; exact hover) (subs.drop n)
    rw [submitAll, submitAll, ← List.foldl_append, List.take_append_drop] at hrest
    exact hrest.trans hcounted
  refine ⟨failsFirst_of_lasts hon hlasts, fun subs kind envelope h => ?_,
    fun subs kind envelope h => ?_⟩
  · rw [fails_iff, hsettled subs h]
    exact (FaultSettings.judge_of_over (s := t.gateway.settings.spent n) hon hover kind _).1
  · rw [submitAll_concat, draws_submit, hsettled subs h]
    exact (FaultSettings.judge_of_over (s := t.gateway.settings.spent n) hon hover kind _).2.2

theorem failsBy_of_off (hoff : t.gateway.settings.isEnabled = false) : t.FailsBy 0 [] 0 := by
  have hrate : ¬ (0 : Float) < 0 := by decide
  refine ⟨⟨fun subs kind envelope h => absurd h (Nat.not_lt_zero _),
    fun subs _ => (submitAll_of_off hoff subs).2⟩, fun subs kind envelope h => ?_,
      fun subs kind envelope h => ?_⟩
  · rw [fails_iff, (submitAll_of_off hoff subs).1, FaultSettings.judge_of_off hoff]
    refine iff_of_false Bool.false_ne_true ?_
    rintro (h | ⟨h, -⟩)
    · cases h
    · exact hrate h
  · rw [(submitAll_of_off hoff _).2, (submitAll_of_off hoff _).2, if_neg (fun h => hrate h.2)]

theorem FailsBy.of_rate {kinds : List SubmissionKind} {rate : Float} (h : t.FailsBy n kinds rate)
    (hrate : ¬ 0 < rate) (subs : List (SubmissionKind × String)) (kind : SubmissionKind)
    (envelope : String) :
    (t.submitAll subs).Fails kind envelope ↔ subs.length < n ∨ kind ∈ kinds := by
  rcases Nat.lt_or_ge subs.length n with hfew | hmany
  · exact iff_of_true (h.fails subs kind envelope hfew) (Or.inl hfew)
  · rw [h.later subs kind envelope hmany, or_iff_left (fun hlow => hrate hlow.1),
      or_iff_right (Nat.not_lt.2 hmany)]

end Trial
end Interchain
