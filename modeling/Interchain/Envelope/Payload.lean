/-
Transfer payloads: who receives, who sent, how much.  A payload is 96 bytes.
-/
import Interchain.Envelope.Fields

namespace Interchain

structure Payload where
  recipient : Address
  sender : Address
  amount : Nat
deriving DecidableEq

namespace Payload

open Abi Envelope

def layout : List Layout := [.address, .address, .uint]

def size : Nat := 96

/-- A payload of arguments; the amount is checked before the addresses. -/
def ofArguments (recipient sender : Except Failure Address) (amount : Int) :
    Except Failure Payload := do
  let n ← refuse (ensureRange "amount" maxUint256 amount)
  let r ← recipient
  let s ← sender
  return ⟨r, s, n⟩

def encode (p : Payload) : Bytes := Abi.encode (.tuple layout) (p.recipient, p.sender, p.amount, ())

def decode (data : String) : Except Cause Payload := do
  unless (Hex.parse? data).any (fun b => b.length = size) do
    throw (.decode .payloadLength)
  let (r, s, n, ()) ← read .payload layout data
  return ⟨r, s, n⟩

end Payload
end Interchain
