/-
Double-precision numbers: the nearest double of a fraction and the shortest
decimal of a double.

A finite double is `m * 2 ^ q` with `m < 2 ^ 53` and `-1074 ≤ q`.  Both directions
work on these two integers in exact arithmetic.
-/
import Interchain.Text.Digit

namespace Interchain
namespace Double

def minExponent : Int := -1074

def scale (num den : Nat) (q : Int) : Nat × Nat :=
  if q < 0 then (num * 2 ^ (-q).toNat, den) else (num, den * 2 ^ q.toNat)

/-- The quotient rounded to the nearest integer, a half to the even neighbour. -/
def roundHalfEven (num den : Nat) : Nat :=
  let n := num / den
  let r := num % den
  if den < 2 * r ∨ (2 * r = den ∧ n % 2 = 1) then n + 1 else n

/-- The exponent whose grid has 53 binary digits at `num / den`, unless that is
below the least. -/
def gridExponent (num den : Nat) : Int :=
  let q := max minExponent ((num.log2 : Int) - den.log2 - 53)
  let (a, b) := scale num den q
  if a / b < 2 ^ 53 then q else q + 1

/-- The bits of the double nearest to `num / den`. -/
def bitsOfRatio (num den : Nat) : Nat :=
  if num = 0 then 0
  else
    let q := gridExponent num den
    let (a, b) := scale num den q
    let m := roundHalfEven a b
    -- a significand that rounds up to 2 ^ 53 carries into the exponent
    let bits := if m < 2 ^ 52 then m else (q - minExponent).toNat * 2 ^ 52 + m
    min bits (0x7FF * 2 ^ 52)

/-- The double nearest to `num / den`, or to its negative. -/
def ofRatio (negative : Bool) (num den : Nat) : Float :=
  Float.ofBits (UInt64.ofNat ((if negative then 2 ^ 63 else 0) + bitsOfRatio num den))

/-- The double nearest to `m * 10 ^ e`.  Exponents beyond every double are cut off
before the power is taken. -/
def ofDecimal (negative : Bool) (m : Nat) (e : Int) : Float :=
  let size := (m.log2 : Int) / 4 + e
  if m = 0 ∨ size + (m.log2 : Int) < -400 then ofRatio negative 0 1
  else if 400 < size then ofRatio negative (2 ^ 1100) 1
  else if e < 0 then ofRatio negative m (10 ^ (-e).toNat)
  else ofRatio negative (m * 10 ^ e.toNat) 1

def ofInt (n : Int) : Float := ofRatio (n < 0) n.natAbs 1

inductive Parts
  | nan
  | infinite (negative : Bool)
  | finite (negative : Bool) (m : Nat) (q : Int)
deriving DecidableEq

def parts (x : Float) : Parts :=
  let bits := x.toBits.toNat
  let negative := bits / 2 ^ 63 == 1
  let e : Nat := bits / 2 ^ 52 % 2 ^ 11
  let m := bits % 2 ^ 52
  if e = 0x7FF then (if m = 0 then .infinite negative else .nan)
  else if e = 0 then .finite negative m minExponent
  else .finite negative (2 ^ 52 + m) (minExponent + e - 1)

structure Scientific where
  digits : Nat
  exponent : Int
deriving DecidableEq

/-- The reals that round to `m * 2 ^ q`, as four times their least and greatest
multiples of `2 ^ q`.  Below a power of two the grid is twice as fine. -/
def interval (m : Nat) (q : Int) : Nat × Nat :=
  (if m = 2 ^ 52 ∧ minExponent < q then 4 * m - 1 else 4 * m - 2, 4 * m + 2)

/-- Whether `d * 10 ^ e` rounds to `m * 2 ^ q`; the ends do so when `m` is even. -/
def roundsTo (m : Nat) (q : Int) (d : Nat) (e : Int) : Bool :=
  let (low, high) := interval m q
  let ten := if e < 0 then 1 else 10 ^ e.toNat
  let tenth := if e < 0 then 10 ^ (-e).toNat else 1
  let two := if q < 0 then 1 else 2 ^ q.toNat
  let half := if q < 0 then 2 ^ (-q).toNat else 1
  let x := 4 * d * ten * half
  let a := low * two * tenth
  let b := high * two * tenth
  if m % 2 = 0 then a ≤ x && x ≤ b else a < x && x < b

/-- The value `m * 2 ^ q` in units of `10 ^ e`, as a fraction. -/
def inUnits (m : Nat) (q e : Int) : Nat × Nat :=
  let (a, b) := if q < 0 then (m, 2 ^ (-q).toNat) else (m * 2 ^ q.toNat, 1)
  if e < 0 then (a * 10 ^ (-e).toNat, b) else (a, b * 10 ^ e.toNat)

/-- The decimal on the grid `10 ^ e` that rounds to the double and is nearest to
it; a tie goes to the even one. -/
def onGrid (m : Nat) (q e : Int) : Option Scientific :=
  let (a, b) := inUnits m q e
  let lower := a / b
  let nearest := roundHalfEven a b
  let other := if nearest = lower then lower + 1 else lower
  if roundsTo m q nearest e then some ⟨nearest, e⟩
  else if roundsTo m q other e then some ⟨other, e⟩
  else none

def width (n : Nat) : Nat := (Nat.toDigits 10 n).length

/-- The exponent of the greatest power of ten that does not exceed `m * 2 ^ q`, for `0 < m`. -/
def magnitude (m : Nat) (q : Int) : Int :=
  if q < 0 then
    -- 400 more places make every positive double a large number
    (width (m * 10 ^ 400 / 2 ^ (-q).toNat) : Int) - 401
  else (width (m * 2 ^ q.toNat) : Int) - 1

def trim : (fuel : Nat) → Scientific → Scientific
  | 0, s => s
  | fuel + 1, s =>
    if s.digits ≠ 0 ∧ s.digits % 10 = 0 then trim fuel ⟨s.digits / 10, s.exponent + 1⟩ else s

/-- The shortest decimal that rounds to `m * 2 ^ q`, and of those the nearest. -/
def shortest (m : Nat) (q : Int) : Scientific :=
  let top := magnitude m q
  trim 20 (((List.range 17).findSome? (fun (k : Nat) => onGrid m q (top - (k : Int)))).getD ⟨m, 0⟩)

/-- How doubles are written as text. -/
structure Style where
  /-- A point is written plainly while it stands at most this far right of the first digit. -/
  maxPoint : Int
  /-- A point is written plainly while it stands no further left than this. -/
  minPoint : Int

/-- Digits and a point that stands `point` places right of the first digit, or an exponent. -/
def write (style : Style) (s : Scientific) : String :=
  let ds := Nat.toDigits 10 s.digits
  let n : Int := ds.length
  let point := n + s.exponent
  if n ≤ point ∧ point ≤ style.maxPoint then
    String.ofList (ds ++ List.replicate (point - n).toNat '0')
  else if 0 < point ∧ point ≤ style.maxPoint then
    String.ofList (ds.take point.toNat ++ '.' :: ds.drop point.toNat)
  else if style.minPoint < point ∧ point ≤ 0 then
    String.ofList ('0' :: '.' :: List.replicate (-point).toNat '0' ++ ds)
  else
    let e := point - 1
    let sign := if e < 0 then "e-" else "e+"
    let lead := String.ofList (ds.take 1)
    let rest := if ds.length ≤ 1 then "" else "." ++ String.ofList (ds.drop 1)
    lead ++ rest ++ sign ++ toString e.natAbs

def plainStyle : Style := ⟨21, -6⟩

/-- The text of a double; zero has no sign. -/
def text (x : Float) : String :=
  match parts x with
  | .nan => "NaN"
  | .infinite negative => if negative then "-Infinity" else "Infinity"
  | .finite negative m q =>
    if m = 0 then "0"
    else (if negative then "-" else "") ++ write plainStyle (shortest m q)

/-- The integer part of a double; an infinite one stands beyond every finite one. -/
def toInt (x : Float) : Int :=
  match parts x with
  | .nan => 0
  | .infinite negative => if negative then -2 ^ 1024 else 2 ^ 1024
  | .finite negative m q =>
    let n : Nat := if q < 0 then m / 2 ^ (-q).toNat else m * 2 ^ q.toNat
    if negative then -n else n

def toNat? (x : Float) : Option Nat :=
  match parts x with
  | .nan | .infinite _ => none
  | .finite negative m q =>
    let (n, d) := inUnits m q 0
    if n % d = 0 ∧ (negative = false ∨ n = 0) then some (n / d) else none

/-- Up to here every natural number is a double, so counting is exact. -/
def maxExact : Nat := 2 ^ 53

end Double
end Interchain
