/-
Component layouts and their values.

A component of fixed size stands in place.  Any other is written behind the
places of its neighbours and leaves an offset in its own.
-/
import Interchain.Address

namespace Interchain
namespace Abi

inductive Layout
  | uint
  | address
  | bytes
  | text
  | array (element : Layout)
  | tuple (fields : List Layout)

mutual
def Layout.Value : Layout → Type
  | .uint => Nat
  | .address => Address
  | .bytes => Bytes
  | .text => String
  | .array e => List e.Value
  | .tuple ls => Values ls

def Values : List Layout → Type
  | [] => Unit
  | l :: ls => l.Value × Values ls
end

mutual
def Layout.isDynamic : Layout → Bool
  | .uint | .address => false
  | .bytes | .text | .array _ => true
  | .tuple ls => anyDynamic ls

def anyDynamic : List Layout → Bool
  | [] => false
  | l :: ls => l.isDynamic || anyDynamic ls
end

mutual
def Layout.staticSize : Layout → Nat
  | .uint | .address | .bytes | .text | .array _ => 32
  | .tuple ls => staticSizes ls

def staticSizes : List Layout → Nat
  | [] => 0
  | l :: ls => l.staticSize + staticSizes ls
end

/-- The bytes that a component takes in the place its neighbours see. -/
def Layout.headSize (l : Layout) : Nat := if l.isDynamic then 32 else l.staticSize

end Abi
end Interchain
