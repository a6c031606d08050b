/-
Reading with no word on types.

What is read is handed over as numbers, texts and lists.  A fault that is not fatal is left in
the place of its component, beside the components that were read, and shows only when the
place is touched.
-/
import Interchain.Abi.Decode

namespace Interchain
namespace Abi

/-- What is read where nothing says what to expect: addresses and byte strings are texts. -/
inductive Untyped
  | number (n : Nat)
  | text (t : String)
  | list (items : List Untyped)
  | fault (f : Fault)

namespace Untyped

/-- A fault that is not fatal is left in the place of its component. -/
def leave : Except Fault Untyped → Except Fault Untyped
  | .ok u => .ok u
  | .error f => if f.isFatal then .error f else .ok (.fault f)

/-- Reads the component whose place is the front of `rest`, with offsets counted from the front
of `base`. -/
def readSlot (isDynamic : Bool) (read : Bytes → Except Fault Untyped) (base rest : Bytes) :
    Except Fault Untyped :=
  if isDynamic then
    match readIndex rest with
    | .error f => .error f
    | .ok offset => leave (read (base.drop offset))
  else leave (read rest)

def andThen (first : Except Fault Untyped) (rest : Except Fault (List Untyped)) :
    Except Fault (List Untyped) :=
  match first with
  | .error f => .error f
  | .ok u => rest.map (u :: ·)

def readSlots (isDynamic : Bool) (size : Nat) (read : Bytes → Except Fault Untyped)
    (base : Bytes) : (count : Nat) → Bytes → Except Fault (List Untyped)
  | 0, _ => .ok []
  | n + 1, rest =>
    andThen (readSlot isDynamic read base rest)
      (readSlots isDynamic size read base n (rest.drop size))

mutual
def read : Layout → Bytes → Except Fault Untyped
  | .uint, data => (readWord data).map .number
  | .address, data =>
    match readWord data with
    | .error f => .error f
    | .ok n =>
      if h : n < 2 ^ 160 then .ok (.text (Address.ofNat n h).render) else .error .wideAddress
  | .bytes, data => (readCounted data).map (fun b => .text (Hex.render b))
  | .text, data =>
    match readCounted data with
    | .error f => .error f
    | .ok b =>
      match Utf8.decode b with
      | .error f => .error (.invalidText f)
      | .ok t => .ok (.text t)
  | .array e, data =>
    match readIndex data with
    | .error f => .error f
    | .ok n =>
      if data.length < n * 32 then .error .insufficientLength
      else
        (readSlots e.isDynamic e.headSize (fun d => read e d) (data.drop 32) n
          (data.drop 32)).map .list
  | .tuple ls, data => (readFields ls data data).map .list

def readFields : List Layout → (base rest : Bytes) → Except Fault (List Untyped)
  | [], _, _ => .ok []
  | l :: ls, base, rest =>
    andThen (readSlot l.isDynamic (fun d => read l d) base rest)
      (readFields ls base (rest.drop l.headSize))
end

end Untyped
end Abi
end Interchain
