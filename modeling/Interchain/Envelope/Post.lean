/-
Post envelopes: destination, module, body, timeout and gas limit, as a module
hands them to its gateway.
-/
import Interchain.Envelope.Payload

namespace Interchain

/-- A decoded post envelope; byte fields are lower-case texts. -/
structure PostEnvelope where
  dest : String
  toModule : String
  body : String
  timeout : Nat
  gasLimit : Nat
deriving DecidableEq

namespace PostEnvelope

open Abi Envelope

def layout : List Layout := [.bytes, .bytes, .bytes, .uint, .uint]

def encode (dest moduleId : String) (payload : Payload) (timeout gasLimit : Int) :
    Except Failure String := do
  let t ← refuse (ensureRange "timeout" maxUint64 timeout)
  let g ← refuse (ensureRange "gasLimit" maxUint64 gasLimit)
  let m ← bytesArgument moduleId
  return write layout (Utf8.encode dest, m, payload.encode, t, g, ())

def decode (data : String) : Except Cause PostEnvelope := do
  let (dest, m, body, t, g, ()) ← read .postEnvelope layout data
  let id ← readChainId dest
  return ⟨id, Hex.render m, Hex.render body, t, g⟩

end PostEnvelope
end Interchain
