/-
A simulated gateway.

It accepts every submission under the next nonce, unless its fault settings say
otherwise.  A count of submissions to fail comes first, then the kinds that
fail, and only then a random number is drawn against the failure rate.
-/
import Interchain.Gateway.Basic
import Interchain.Gateway.Countdown

namespace Interchain

/-- A source of random numbers and how many were drawn from it. -/
structure Draws where
  value : Nat → Float
  taken : Nat

namespace Draws

/-- A source that hands out the given numbers over and over, or zeros. -/
def cycle (xs : List Float) : Draws :=
  ⟨fun i => (xs[i % xs.length]?).getD 0, 0⟩

def next (d : Draws) : Float × Draws := (d.value d.taken, ⟨d.value, d.taken + 1⟩)

end Draws

structure FaultSettings where
  isEnabled : Bool
  failureRate : Float
  failKinds : List SubmissionKind
  failNext : Countdown

namespace FaultSettings

def off : FaultSettings := ⟨false, 0, [], .zero⟩

structure Change where
  failureRate : Option Float
  failKinds : Option (List SubmissionKind)
  failNext : Option Countdown

def Change.none : Change := ⟨.none, .none, .none⟩

/-- Kinds without repetition, in the order of their first appearance. -/
def distinct (ks : List SubmissionKind) : List SubmissionKind :=
  ks.foldl (fun acc k => if acc.contains k then acc else acc ++ [k]) []

def enable (s : FaultSettings) (c : Change) : FaultSettings :=
  ⟨true, c.failureRate.getD s.failureRate, (c.failKinds.map distinct).getD s.failKinds,
    c.failNext.getD s.failNext⟩

/-- Turns faults off and forgets counts and kinds; the rate stays. -/
def disable (s : FaultSettings) : FaultSettings := ⟨false, s.failureRate, [], .zero⟩

/-- Whether a submission fails, with the settings and the random source after it. -/
def judge (s : FaultSettings) (kind : SubmissionKind) (d : Draws) :
    Bool × FaultSettings × Draws :=
  if !s.isEnabled then (false, s, d)
  else if s.failNext.isPositive then (true, { s with failNext := s.failNext.pred }, d)
  else if s.failKinds.contains kind then (true, s, d)
  else if 0 < s.failureRate then
    let (x, d) := d.next
    (x < s.failureRate, s, d)
  else (false, s, d)

end FaultSettings

/-- An entry of a submission log; a rejected one has nonce -1. -/
structure Submission where
  kind : SubmissionKind
  envelope : String
  nonce : Int
  isAccepted : Bool
deriving DecidableEq

structure SimulatedGateway where
  settings : FaultSettings
  nextNonce : Nat
  log : List Submission
  isRecording : Bool

namespace SimulatedGateway

def new (isRecording : Bool) : SimulatedGateway := ⟨.off, 0, [], isRecording⟩

def record (g : SimulatedGateway) (s : Submission) : SimulatedGateway :=
  if g.isRecording then { g with log := g.log ++ [s] } else g

def rejection (kind : SubmissionKind) : String := s!"Simulated {kind.name} rejection"

def submit (g : SimulatedGateway) (kind : SubmissionKind) (envelope : String) (d : Draws) :
    Reply × SimulatedGateway × Draws :=
  match g.settings.judge kind d with
  | (true, s, d) =>
    (.rejected kind (rejection kind),
      { g with settings := s }.record ⟨kind, envelope, -1, false⟩, d)
  | (false, s, d) =>
    (.accepted g.nextNonce,
      { g with settings := s, nextNonce := g.nextNonce + 1 }.record
        ⟨kind, envelope, g.nextNonce, true⟩, d)

def enable (g : SimulatedGateway) (c : FaultSettings.Change) : SimulatedGateway :=
  { g with settings := g.settings.enable c }

def disable (g : SimulatedGateway) : SimulatedGateway := { g with settings := g.settings.disable }

def failNextSubmissions (g : SimulatedGateway) (count : Countdown) :
    SimulatedGateway :=
  g.enable ⟨none, none, some count⟩

def rejectKind (g : SimulatedGateway) (kind : SubmissionKind) : SimulatedGateway :=
  g.enable ⟨none, some (g.settings.failKinds ++ [kind]), none⟩

def submissionsOf (g : SimulatedGateway) (kind : SubmissionKind) : List Submission :=
  g.log.filter (fun s => s.kind = kind)

def reset (g : SimulatedGateway) : SimulatedGateway := new g.isRecording

end SimulatedGateway

/-- A simulated gateway with its random source, whose next submission fails with
`trip` instead of reaching it, if one is set. -/
structure TestLine where
  gateway : SimulatedGateway
  draws : Draws
  trip : Option String

namespace TestLine

def submit (kind : SubmissionKind) (envelope : String) (l : TestLine) : Reply × TestLine :=
  match l.trip with
  | some text => (.raised text, { l with trip := none })
  | none =>
    match l.gateway.submit kind envelope l.draws with
    | (r, g, d) => (r, { l with gateway := g, draws := d })

def asGateway : Gateway TestLine := .ofReplies submit

end TestLine
end Interchain
