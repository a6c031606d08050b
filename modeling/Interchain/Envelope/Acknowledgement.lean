/-
Acknowledgements: a tag and the module that accepted a request.
-/
import Interchain.Envelope.Fields

namespace Interchain
namespace Acknowledgement

open Abi Envelope

def tag : String := "ack"

def isTag (t : String) : Bool := t == tag

def layout : List Layout := [.text, .address]

def encode (executor : Address) : String := write layout (tag, executor, ())

def decode (data : String) : Except Cause Address := do
  let (t, a, ()) ← read .acknowledgement layout data
  if isTag t then return a else throw (.decode .notAcknowledgement)

end Acknowledgement
end Interchain
