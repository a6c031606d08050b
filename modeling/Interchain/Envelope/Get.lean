/-
Get envelopes: destination, height, storage keys, timeout and gas limit.
-/
import Interchain.Envelope.Fields

namespace Interchain

structure GetEnvelope where
  dest : String
  height : Nat
  keys : List String
  timeout : Nat
  gasLimit : Nat
deriving DecidableEq

namespace GetEnvelope

open Abi Envelope

def layout : List Layout := [.bytes, .uint, .array .bytes, .uint, .uint]

def encode (dest : String) (keys : List String) (height timeout gasLimit : Int) :
    Except Failure String := do
  let h ← refuse (ensureRange "height" maxUint64 height)
  let t ← refuse (ensureRange "timeout" maxUint64 timeout)
  let g ← refuse (ensureRange "gasLimit" maxUint64 gasLimit)
  let ks ← keys.mapM bytesArgument
  return write layout (Utf8.encode dest, h, ks, t, g, ())

def decode (data : String) : Except Cause GetEnvelope := do
  let (dest, h, ks, t, g, ()) ← read .getEnvelope layout data
  let id ← readChainId dest
  return ⟨id, h, ks.map Hex.render, t, g⟩

end GetEnvelope
end Interchain
