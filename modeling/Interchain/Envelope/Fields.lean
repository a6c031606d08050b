/-
Field lists as hexadecimal text, and the arguments that go into them.
-/
import Interchain.Address.Reread
import Interchain.Message

namespace Interchain
namespace Envelope

open Abi

def write (ls : List Layout) (vs : Values ls) : String := Hex.render (encode (.tuple ls) vs)

/-- Reads a text that is the writing of field values, up to the case of its digits. -/
def read (item : Item) (ls : List Layout) (data : String) : Except Cause (Values ls) :=
  match Hex.parse? data with
  | none => .error (.decode (.notBytes item))
  | some b =>
    match decodeExact ls b with
    | .error f => .error (.decode (.malformed item f))
    | .ok vs => .ok vs

def readChainId (b : Bytes) : Except Cause String :=
  match Utf8.decode b with
  | .error f => .error (.decode (.chainText f))
  | .ok t => .ok t

def ensureRange (field : String) (max : Nat) (n : Int) : Except Cause Nat :=
  if n < 0 ∨ (max : Int) < n then .error (.outOfRange field) else .ok n.toNat

def bytesArgument (t : String) : Except Failure Bytes :=
  match Hex.parseEitherMark? t with
  | none => .error (.argument .notBytes)
  | some b => .ok b

def wordArgument (n : Int) : Except Failure Nat :=
  if n < 0 ∨ (maxUint256 : Int) < n then .error (.argument .outOfRange) else .ok n.toNat

def addressArgument (t : String) : Except Failure Address :=
  match Address.parse t with
  | .error f => .error (.argument (.address f))
  | .ok a => .ok a

/-- An argument that is the text of an address. -/
def rereadArgument (a : Address) : Except Failure Address :=
  match a.reread with
  | .error f => .error (.argument (.address f))
  | .ok a => .ok a

theorem addressArgument_render (a : Address) : addressArgument a.render = rereadArgument a := by
  rw [addressArgument, Address.parse_render, rereadArgument]

end Envelope
end Interchain
