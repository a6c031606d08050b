/-
Decoders that take nothing for granted.

Each takes the untyped reading of its data apart by places: a place may be missing or hold a
fault, and what it holds may be of another shape than is expected.  Whatever is raised while
data is read or written again is caught and quoted in a decode error; what is raised after
that is not.
-/
import Interchain.Abi.Untyped
import Interchain.Envelope.Acknowledgement
import Interchain.Envelope.Get
import Interchain.Envelope.Post
import Interchain.Envelope.Response

namespace Interchain

open Abi Envelope

/-- Refuses as a decode error whatever is raised, and quotes it. -/
def quoting {α : Type} (quote : String → String) : Except Failure α → Except Failure α
  | .ok a => .ok a
  | .error f => .error (.ofCause (.stated .decodeError (quote f.message)))

namespace Abi

def Fault.raised (f : Fault) : Failure := .raised f.message

namespace Untyped

/-! ## Writing again -/

/-- Takes what is at the place `index`, and raises a fault that was left there. -/
def touch (index : Nat) : Untyped → Except Failure Untyped
  | .fault _ => .error (.raised (ExactFault.spoilt index).message)
  | u => .ok u

/-- Writes the components from the one at `index` on. -/
def writeSlots (isDynamic : Bool) (write : Untyped → Except Failure Bytes) :
    (index : Nat) → List Untyped → Except Failure (List Part)
  | _, [] => .ok []
  | index, u :: us => do
    let b ← u.touch index >>= write
    let ps ← writeSlots isDynamic write (index + 1) us
    return ⟨isDynamic, b⟩ :: ps

mutual
/-- Writes what was read, if it has the shape of the layout. -/
def write : Layout → Untyped → Except Failure Bytes
  | .uint, .number n => return Bytes.word (← wordArgument n)
  | .address, .text t => return Bytes.word (← addressArgument t).value
  | .bytes, .text t => return counted (← bytesArgument t)
  | .text, .text t => return counted (Utf8.encode t)
  | .array e, .list us => do
    let ps ← writeSlots e.isDynamic (fun u => write e u) 0 us
    return Bytes.word us.length ++ layOut ps
  | .tuple ls, .list us => return layOut (← writeFields ls 0 us)
  | _, _ => .error (.raised (invalidArgument "invalid value"))

def writeFields : List Layout → (index : Nat) → List Untyped → Except Failure (List Part)
  | [], _, [] => .ok []
  | l :: ls, index, u :: us => do
    let b ← u.touch index >>= fun u => write l u
    let ps ← writeFields ls (index + 1) us
    return ⟨l.isDynamic, b⟩ :: ps
  | _, _, _ => .error (.raised (invalidArgument "types/value length mismatch"))
end

/-! ## Fields -/

/-- What a decoder refuses with if a field is of another shape than `expected`. -/
def unexpected (expected : String) : Failure :=
  .ofCause (.stated .decodeError s!"Expected {expected} field")

def asNumber : Untyped → Except Failure Nat
  | .number n => .ok n
  | _ => .error (unexpected "an integer")

def asBytes : Untyped → Except Failure String
  | .text t => if (Hex.parse? t).isSome then .ok t else .error (unexpected "a bytes")
  | _ => .error (unexpected "a bytes")

def asText : Untyped → Except Failure String
  | .text t => .ok t
  | _ => .error (unexpected "a string")

def asList : Untyped → Except Failure (List Untyped)
  | .list us => .ok us
  | _ => .error (unexpected "a tuple")

/-- The text whose octets a byte text spells. -/
def spelledText (t : String) : Except Failure String := do
  let b ← bytesArgument t
  (Utf8.decode b).mapError (fun f => .raised (invalidArgument f.message))

def asChainId (u : Untyped) : Except Failure String :=
  quoting (fun text => s!"State machine id is not valid UTF-8: {text}") (u.asBytes >>= spelledText)

def asAddress (u : Untyped) : Except Failure Address := u.asText >>= addressArgument

/-- Byte texts in a list, all of which are taken before the first is looked at. -/
def asByteTexts (u : Untyped) : Except Failure (List String) := do
  let us ← u.asList
  let items ← us.zipIdx.mapM (fun u => u.1.touch u.2)
  items.mapM asBytes

def place (us : List Untyped) (index : Nat) : Except Failure Untyped :=
  match us[index]? with
  | none => .error (.raised "out of result range")
  | some u => u.touch index

end Untyped
end Abi

/-! ## Decoders -/

/-- The fields of a text that is the writing of them, up to the case of its digits. -/
def Envelope.readUntyped (item : Item) (ls : List Layout) (data : String) :
    Except Failure (List Untyped) :=
  match Hex.parse? data with
  | none => .error (.ofCause (.decode (.notBytes item)))
  | some b => do
    let quote (text : String) : String := s!"Malformed {item.name}: {text}"
    let us ← quoting quote ((Untyped.readFields ls b b).mapError Fault.raised)
    let again ← quoting quote (Untyped.write (.tuple ls) (.list us))
    if Hex.render again = Hex.render b then return us
    else throw (.ofCause (.decode (.malformed item .notCanonical)))

def Payload.decodeUntyped (data : String) : Except Failure Payload := do
  unless (Hex.parse? data).any (fun b => b.length = size) do
    throw (.ofCause (.decode .payloadLength))
  let us ← readUntyped .payload layout data
  let r ← Untyped.place us 0 >>= Untyped.asAddress
  let s ← Untyped.place us 1 >>= Untyped.asAddress
  let n ← Untyped.place us 2 >>= Untyped.asNumber
  return ⟨r, s, n⟩

def PostEnvelope.decodeUntyped (data : String) : Except Failure PostEnvelope := do
  let us ← readUntyped .postEnvelope layout data
  let dest ← Untyped.place us 0 >>= Untyped.asChainId
  let m ← Untyped.place us 1 >>= Untyped.asBytes
  let body ← Untyped.place us 2 >>= Untyped.asBytes
  let t ← Untyped.place us 3 >>= Untyped.asNumber
  let g ← Untyped.place us 4 >>= Untyped.asNumber
  return ⟨dest, m, body, t, g⟩

def GetEnvelope.decodeUntyped (data : String) : Except Failure GetEnvelope := do
  let us ← readUntyped .getEnvelope layout data
  let dest ← Untyped.place us 0 >>= Untyped.asChainId
  let h ← Untyped.place us 1 >>= Untyped.asNumber
  let keys ← Untyped.place us 2 >>= Untyped.asByteTexts
  let t ← Untyped.place us 3 >>= Untyped.asNumber
  let g ← Untyped.place us 4 >>= Untyped.asNumber
  return ⟨dest, h, keys, t, g⟩

def ResponseEnvelope.decodeUntyped (data : String) : Except Failure PostResponse := do
  let us ← readUntyped .responseEnvelope layout data
  let request ← Untyped.place us 0 >>= Untyped.asList
  let source ← Untyped.place request 0 >>= Untyped.asChainId
  let dest ← Untyped.place request 1 >>= Untyped.asChainId
  let n ← Untyped.place request 2 >>= Untyped.asNumber
  let f ← Untyped.place request 3 >>= Untyped.asBytes
  let recipient ← Untyped.place request 4 >>= Untyped.asBytes
  let t ← Untyped.place request 5 >>= Untyped.asNumber
  let body ← Untyped.place request 6 >>= Untyped.asBytes
  let g ← Untyped.place request 7 >>= Untyped.asNumber
  let response ← Untyped.place us 1 >>= Untyped.asBytes
  return ⟨⟨source, dest, n, f, recipient, t, body, g⟩, response⟩

def Acknowledgement.decodeUntyped (data : String) : Except Failure Address := do
  let us ← readUntyped .acknowledgement layout data
  let t ← Untyped.place us 0 >>= Untyped.asText
  if isTag t then Untyped.place us 1 >>= Untyped.asAddress
  else throw (.ofCause (.decode .notAcknowledgement))

end Interchain
