/-
Reading values.

Two kinds of fault differ in reach.  Running out of bytes ends the whole
reading.  Any other fault spoils only the component it is met in: reading goes
on beside it, and what is left of the value is the index of the first spoilt
component, in the innermost tuple or array that holds it.  The fault of an offset
word spoils the tuple or array that the word stands in.
-/
import Interchain.Abi.Encode

namespace Interchain
namespace Abi

/-- Why bytes are no value. -/
inductive Fault
  | outOfBounds
  | insufficientLength
  | overflow
  | wideAddress
  | invalidText (fault : Utf8.Fault)
deriving DecidableEq

def Fault.isFatal : Fault → Bool
  | .outOfBounds | .insufficientLength => true
  | .overflow | .wideAddress | .invalidText _ => false

/-- A value, or the index of the first spoilt component. -/
abbrev Reading (α : Type) := Except Nat α

/-- The first spoilt component wins. -/
def Reading.both {α β γ : Type} (f : α → β → γ) : Reading α → Reading β → Reading γ
  | .error i, _ => .error i
  | .ok _, .error i => .error i
  | .ok a, .ok b => .ok (f a b)

def readWord (data : Bytes) : Except Fault Nat :=
  if data.length < 32 then .error .outOfBounds else .ok (Bytes.toNat (data.take 32))

/-- The greatest offset, length or count. -/
def maxIndex : Nat := 2 ^ 53 - 1

def readIndex (data : Bytes) : Except Fault Nat :=
  match readWord data with
  | .error f => .error f
  | .ok n => if maxIndex < n then .error .overflow else .ok n

def readCounted (data : Bytes) : Except Fault Bytes :=
  match readIndex data with
  | .error f => .error f
  | .ok n =>
    let rest := data.drop 32
    if rest.length < Bytes.paddedLength n then .error .outOfBounds else .ok (rest.take n)

/-- A fault that is not fatal spoils the component at `index`. -/
def settle {α : Type} (index : Nat) : Except Fault (Reading α) → Except Fault (Reading α)
  | .ok r => .ok r
  | .error f => if f.isFatal then .error f else .ok (.error index)

/-- Reads the component whose place is the front of `rest`, with offsets counted
from the front of `base`. -/
def readPart {α : Type} (isDynamic : Bool) (index : Nat) (read : Bytes → Except Fault (Reading α))
    (base rest : Bytes) : Except Fault (Reading α) :=
  if isDynamic then
    match readIndex rest with
    | .error f => .error f
    | .ok offset => settle index (read (base.drop offset))
  else settle index (read rest)

def readElements {α : Type} (isDynamic : Bool) (size : Nat)
    (read : Bytes → Except Fault (Reading α)) (base : Bytes) :
    (count index : Nat) → Bytes → Except Fault (Reading (List α))
  | 0, _, _ => .ok (.ok [])
  | n + 1, index, rest =>
    match readPart isDynamic index read base rest with
    | .error f => .error f
    | .ok v =>
      match readElements isDynamic size read base n (index + 1) (rest.drop size) with
      | .error f => .error f
      | .ok vs => .ok (Reading.both (· :: ·) v vs)

mutual
def decode : (l : Layout) → Bytes → Except Fault (Reading l.Value)
  | .uint, data => (readWord data).map .ok
  | .address, data =>
    match readWord data with
    | .error f => .error f
    | .ok n => if h : n < 2 ^ 160 then .ok (.ok (Address.ofNat n h)) else .error .wideAddress
  | .bytes, data => (readCounted data).map .ok
  | .text, data =>
    match readCounted data with
    | .error f => .error f
    | .ok b =>
      match Utf8.decode b with
      | .error f => .error (.invalidText f)
      | .ok t => .ok (.ok t)
  | .array e, data =>
    match readIndex data with
    | .error f => .error f
    | .ok n =>
      if data.length < n * 32 then .error .insufficientLength
      else
        readElements e.isDynamic e.headSize (fun d => decode e d) (data.drop 32) n 0 (data.drop 32)
  | .tuple ls, data => decodeFields ls data 0 data

/-- Reads the fields from the one at `index` on. -/
def decodeFields : (ls : List Layout) → (base : Bytes) → (index : Nat) → (rest : Bytes) →
    Except Fault (Reading (Values ls))
  | [], _, _, _ => .ok (.ok ())
  | l :: ls, base, index, rest =>
    match readPart l.isDynamic index (fun d => decode l d) base rest with
    | .error f => .error f
    | .ok v =>
      match decodeFields ls base (index + 1) (rest.drop l.headSize) with
      | .error f => .error f
      | .ok vs => .ok (Reading.both Prod.mk v vs)
end

/-- Why bytes are no canonical writing of a value. -/
inductive ExactFault
  | unreadable (fault : Fault)
  | spoilt (index : Nat)
  | notCanonical
deriving DecidableEq

/-- Reads fields that the bytes are the one writing of. -/
def decodeExact (ls : List Layout) (data : Bytes) : Except ExactFault (Values ls) :=
  match decode (.tuple ls) data with
  | .error f => .error (.unreadable f)
  | .ok (.error i) => .error (.spoilt i)
  | .ok (.ok vs) => if encode (.tuple ls) vs = data then .ok vs else .error .notCanonical

end Abi
end Interchain
