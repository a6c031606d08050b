/-
Keccak-256: the sponge over the 1600-bit permutation with rate 136 and the
padding byte `0x01`.

A state is 25 lanes of 64 bits, lane `(x, y)` at index `x + 5 y`.  Each step of
the permutation is given by the lane it leaves at every place.
-/
import Interchain.Bytes

namespace Interchain
namespace Keccak

abbrev State := Vector UInt64 25

namespace State

def lane (s : State) (x y : Nat) : UInt64 := s.get ⟨x % 5 + 5 * (y % 5), by omega⟩

/-- The state whose lane at `(x, y)` is `f x y`. -/
def ofLanes (f : Nat → Nat → UInt64) : State := Vector.ofFn (fun i => f (i.val % 5) (i.val / 5))

end State

def rotate (w : UInt64) (n : UInt64) : UInt64 := (w <<< n) ||| (w >>> (64 - n))

def offsets : Vector UInt64 25 :=
  #v[0, 1, 62, 28, 27, 36, 44, 6, 55, 20, 3, 10, 43, 25, 39, 41, 45, 15, 21, 8, 18, 2, 61, 56, 14]

def roundConstants : List UInt64 :=
  [0x0000000000000001, 0x0000000000008082, 0x800000000000808a, 0x8000000080008000,
   0x000000000000808b, 0x0000000080000001, 0x8000000080008081, 0x8000000000008009,
   0x000000000000008a, 0x0000000000000088, 0x0000000080008009, 0x000000008000000a,
   0x000000008000808b, 0x800000000000008b, 0x8000000000008089, 0x8000000000008003,
   0x8000000000008002, 0x8000000000000080, 0x000000000000800a, 0x800000008000000a,
   0x8000000080008081, 0x8000000000008080, 0x0000000080000001, 0x8000000080008008]

def parity (s : State) (x : Nat) : UInt64 :=
  s.lane x 0 ^^^ s.lane x 1 ^^^ s.lane x 2 ^^^ s.lane x 3 ^^^ s.lane x 4

/-- Mixes into each lane the parities of the columns beside it. -/
def theta (s : State) : State :=
  let p : Vector UInt64 5 := Vector.ofFn (fun i => parity s i.val)
  State.ofLanes (fun x y =>
    s.lane x y ^^^ p.get ⟨(x + 4) % 5, by omega⟩ ^^^ rotate (p.get ⟨(x + 1) % 5, by omega⟩) 1)

/-- Rotates the lanes and moves `(x, y)` to `(y, 2 x + 3 y)`. -/
def rhoPi (s : State) : State :=
  State.ofLanes (fun x y => rotate (s.lane (x + 3 * y) x) (State.lane offsets (x + 3 * y) x))

def chi (s : State) : State :=
  State.ofLanes (fun x y => s.lane x y ^^^ (~~~ s.lane (x + 1) y &&& s.lane (x + 2) y))

def iota (s : State) (c : UInt64) : State :=
  State.ofLanes (fun x y => if x = 0 ∧ y = 0 then s.lane 0 0 ^^^ c else s.lane x y)

def permute (s : State) : State :=
  roundConstants.foldl (fun s c => iota (chi (rhoPi (theta s))) c) s

def rate : Nat := 136

def padded (message : Bytes) : Bytes :=
  let gap := rate - message.length % rate
  if gap = 1 then message ++ [0x81]
  else message ++ 0x01 :: List.replicate (gap - 2) 0 ++ [0x80]

/-- The lane that eight bytes spell, least significant first. -/
def laneOf (b : Bytes) : UInt64 := UInt64.ofNat (Bytes.toNat b.reverse)

def absorb (s : State) (block : Bytes) : State :=
  permute (State.ofLanes (fun x y =>
    s.lane x y ^^^ laneOf ((block.drop (8 * (x + 5 * y))).take 8)))

def blocks (b : Bytes) : List Bytes :=
  (List.range (b.length / rate)).map (fun i => (b.drop (i * rate)).take rate)

def hash (message : Bytes) : Bytes :=
  let s := (blocks (padded message)).foldl absorb (Vector.replicate 25 0)
  (List.range 4).flatMap (fun x => (Bytes.ofNat 8 (s.lane x 0).toNat).reverse)

end Keccak
end Interchain
