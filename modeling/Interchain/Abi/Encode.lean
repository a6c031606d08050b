/-
Writing values.

The parts of a tuple or an array are laid out as heads and tails.  A part in
place is its own head and has no tail; a part behind an offset has as head the
distance from the first head to its tail.
-/
import Interchain.Abi.Layout
import Interchain.Text.Utf8

namespace Interchain
namespace Abi

structure Part where
  isDynamic : Bool
  body : Bytes

def Part.headSize (p : Part) : Nat := if p.isDynamic then 32 else p.body.length

/-- The heads, where `tail` is the distance to the next free tail. -/
def heads : (tail : Nat) → List Part → Bytes
  | _, [] => []
  | tail, p :: ps =>
    if p.isDynamic then Bytes.word tail ++ heads (tail + p.body.length) ps
    else p.body ++ heads tail ps

def tails : List Part → Bytes
  | [] => []
  | p :: ps => if p.isDynamic then p.body ++ tails ps else tails ps

def headSizes : List Part → Nat
  | [] => 0
  | p :: ps => p.headSize + headSizes ps

def layOut (ps : List Part) : Bytes := heads (headSizes ps) ps ++ tails ps

/-- A length and that many bytes, filled up to whole words. -/
def counted (b : Bytes) : Bytes := Bytes.word b.length ++ Bytes.pad b

mutual
def encode : (l : Layout) → l.Value → Bytes
  | .uint, n => Bytes.word n
  | .address, a => Bytes.word a.value
  | .bytes, b => counted b
  | .text, t => counted (Utf8.encode t)
  | .array e, vs => Bytes.word vs.length ++ layOut (vs.map (fun v => ⟨e.isDynamic, encode e v⟩))
  | .tuple ls, vs => layOut (parts ls vs)

def parts : (ls : List Layout) → Values ls → List Part
  | [], _ => []
  | l :: ls, (v, vs) => ⟨l.isDynamic, encode l v⟩ :: parts ls vs
end

end Abi
end Interchain
