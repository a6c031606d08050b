/-
Response envelopes: a post request and the body of its answer.
-/
import Interchain.Envelope.Fields

namespace Interchain
namespace ResponseEnvelope

open Abi Envelope

def requestLayout : List Layout :=
  [.bytes, .bytes, .uint, .bytes, .bytes, .uint, .bytes, .uint]

def layout : List Layout := [.tuple requestLayout, .bytes]

/-- Writes a request and a response; the first argument that cannot be written is named. -/
def encode (request : PostRequest) (response : String) : Except Failure String := do
  let n ← wordArgument request.nonce
  let f ← bytesArgument request.fromModule
  let recipient ← bytesArgument request.toModule
  let t ← wordArgument request.timeout
  let body ← bytesArgument request.body
  let g ← wordArgument request.gasLimit
  let r ← bytesArgument response
  return write layout
    ((Utf8.encode request.source, Utf8.encode request.dest, n, f, recipient, t, body, g, ()), r, ())

def decode (data : String) : Except Cause PostResponse := do
  let ((source, dest, n, f, recipient, t, body, g, ()), r, ()) ← read .responseEnvelope layout data
  let s ← readChainId source
  let d ← readChainId dest
  return ⟨⟨s, d, Int.ofNat n, Hex.render f, Hex.render recipient, Int.ofNat t, Hex.render body,
    Int.ofNat g⟩, Hex.render r⟩

end ResponseEnvelope
end Interchain
