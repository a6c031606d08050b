/-
Dispatch gateways.

A gateway takes an envelope and either accepts it under a nonce, rejects it with
a reason, or fails itself.  It does so before the submission returns, and never calls
the module that submits.
-/
import Interchain.Failure.Report

namespace Interchain

/-- A reply; what is raised is a text, if nothing else is said. -/
inductive Reply (ε : Type := String)
  | accepted (nonce : Int)
  | rejected (kind : SubmissionKind) (reason : String)
  | raised (value : ε)
deriving DecidableEq

namespace Reply

variable {ε : Type}

def isAccepted : Reply ε → Bool
  | .accepted _ => true
  | .rejected _ _ | .raised _ => false

def thrown : Reply → Reply Thrown
  | .accepted nonce => .accepted nonce
  | .rejected kind reason => .rejected kind reason
  | .raised text => .raised (.failure (.raised text))

theorem isAccepted_thrown (r : Reply) : r.thrown.isAccepted = r.isAccepted := by
  cases r <;> rfl

theorem thrown_eq_accepted {r : Reply} {nonce : Int} :
    r.thrown = .accepted nonce ↔ r = .accepted nonce := by
  cases r <;> simp [thrown]

end Reply

structure Gateway (σ : Type) where
  submit : SubmissionKind → String → σ → Reply Thrown × σ

namespace Gateway

variable {σ : Type} {f : SubmissionKind → String → σ → Reply × σ} {kind : SubmissionKind}
  {envelope : String} {st st' : σ}

/-- A gateway that fails with words. -/
def ofReplies (f : SubmissionKind → String → σ → Reply × σ) : Gateway σ :=
  ⟨fun kind envelope st =>
    match f kind envelope st with
    | (r, st) => (r.thrown, st)⟩

theorem of_ofReplies {reply : Reply Thrown}
    (h : (ofReplies f).submit kind envelope st = (reply, st')) :
    ∃ r, f kind envelope st = (r, st') ∧ reply = r.thrown := by
  obtain ⟨hreply, rfl⟩ := Prod.mk.inj h
  exact ⟨(f kind envelope st).1, rfl, hreply.symm⟩

theorem ofReplies_eq_accepted {nonce : Int} :
    (ofReplies f).submit kind envelope st = (.accepted nonce, st') ↔
      f kind envelope st = (.accepted nonce, st') := by
  constructor
  · intro h
    obtain ⟨r, hf, hr⟩ := of_ofReplies h
    rw [hf, Reply.thrown_eq_accepted.1 hr.symm]
  · intro h
    show ((f kind envelope st).1.thrown, (f kind envelope st).2) = _
    rw [h]
    rfl

end Gateway

end Interchain
