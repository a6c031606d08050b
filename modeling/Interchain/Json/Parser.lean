/-
Reading JSON text.

Each reader takes the characters to come and gives what it read with the
characters after it.  Nesting is bounded by fuel, of which a text of `n`
characters needs at most `2 n + 2`.
-/
import Interchain.Json.Value
import Interchain.Text.Digit

namespace Interchain
namespace Json
namespace Parser

def isBlank (c : Char) : Bool := c == ' ' || c == '\t' || c == '\n' || c == '\r'

def skipBlanks (cs : List Char) : List Char := cs.dropWhile isBlank

/-! ## Strings

A string is read as UTF-16 units and whole characters beyond them, since an
escape names one unit and a pair of units names one character. -/

/-- What a backslash and a character stand for. -/
def simpleEscape? (c : Char) : Option Nat :=
  if c = '"' then some 34
  else if c = '\\' then some 92
  else if c = '/' then some 47
  else if c = 'b' then some 8
  else if c = 'f' then some 12
  else if c = 'n' then some 10
  else if c = 'r' then some 13
  else if c = 't' then some 9
  else none

def unit? (a b c d : Char) : Option Nat := (Digit.readAll? 16 [a, b, c, d]).map Digit.number

def units : List Char → Option (List Nat × List Char)
  | [] => none
  | '"' :: rest => some ([], rest)
  | '\\' :: 'u' :: a :: b :: c :: d :: rest =>
    match unit? a b c d, units rest with
    | some u, some (us, rest) => some (u :: us, rest)
    | _, _ => none
  | '\\' :: c :: rest =>
    match simpleEscape? c, units rest with
    | some u, some (us, rest) => some (u :: us, rest)
    | _, _ => none
  | c :: rest =>
    if c.toNat < 32 then none
    else
      match units rest with
      | some (us, rest) => some (c.toNat :: us, rest)
      | none => none

def isHigh (u : Nat) : Bool := 0xD800 ≤ u && u < 0xDC00

def isLow (u : Nat) : Bool := 0xDC00 ≤ u && u < 0xE000

/-- Joins pairs of units; a unit without its partner is replaced. -/
def joinUnits : List Nat → List Char
  | [] => []
  | [u] => [if isHigh u || isLow u then '\uFFFD' else Char.ofNat u]
  | u :: v :: us =>
    if isHigh u && isLow v then
      Char.ofNat (0x10000 + (u - 0xD800) * 0x400 + (v - 0xDC00)) :: joinUnits us
    else if isHigh u || isLow u then '\uFFFD' :: joinUnits (v :: us)
    else Char.ofNat u :: joinUnits (v :: us)

def text? (cs : List Char) : Option (String × List Char) :=
  (units cs).map (fun r => (String.ofList (joinUnits r.1), r.2))

/-! ## Numbers -/

def digits? (cs : List Char) : Option (List Char × List Char) :=
  match cs.takeWhile Char.isDigit with
  | [] => none
  | ds => some (ds, cs.dropWhile Char.isDigit)

def fraction? : List Char → Option (List Char × List Char)
  | '.' :: cs => digits? cs
  | cs => some ([], cs)

/-- Reads the digits of an exponent after its sign. -/
def exponentDigits? (negative : Bool) (cs : List Char) : Option (Int × List Char) :=
  match digits? cs with
  | none => none
  | some (ds, rest) =>
    let n : Int := Nat.ofDigitChars 10 ds 0
    some (if negative then -n else n, rest)

def exponent? : List Char → Option (Int × List Char)
  | c :: cs =>
    if c = 'e' ∨ c = 'E' then
      match cs with
      | '-' :: cs => exponentDigits? true cs
      | '+' :: cs => exponentDigits? false cs
      | cs => exponentDigits? false cs
    else some (0, c :: cs)
  | [] => some (0, [])

/-- Reads a number after its sign.  A zero stands alone before the point. -/
def magnitude? (negative : Bool) (cs : List Char) : Option (Float × List Char) :=
  match digits? cs with
  | none => none
  | some (whole, rest) =>
    if whole.head? = some '0' ∧ whole.length ≠ 1 then none
    else
      match fraction? rest with
      | none => none
      | some (places, rest) =>
        match exponent? rest with
        | none => none
        | some (e, rest) =>
          let m := Nat.ofDigitChars 10 (whole ++ places) 0
          some (Double.ofDecimal negative m (e - places.length), rest)

def number? : List Char → Option (Float × List Char)
  | '-' :: cs => magnitude? true cs
  | cs => magnitude? false cs

/-! ## Values -/

def key? (cs : List Char) : Option (String × List Char) :=
  match skipBlanks cs with
  | '"' :: rest =>
    match text? rest with
    | none => none
    | some (k, rest) =>
      match skipBlanks rest with
      | ':' :: rest => some (k, rest)
      | _ => none
  | _ => none

mutual
def value? : (fuel : Nat) → List Char → Option (Json × List Char)
  | 0, _ => none
  | fuel + 1, cs =>
    match skipBlanks cs with
    | [] => none
    | '"' :: rest => (text? rest).map (fun r => (.string r.1, r.2))
    | '[' :: rest =>
      match skipBlanks rest with
      | ']' :: rest => some (.array [], rest)
      | _ => (items? fuel rest).map (fun r => (.array r.1, r.2))
    | '\x7b' :: rest =>
      match skipBlanks rest with
      | '\x7d' :: rest => some (.object [], rest)
      | _ => (fields? fuel rest).map (fun r => (ofFields r.1, r.2))
    | 'n' :: 'u' :: 'l' :: 'l' :: rest => some (.null, rest)
    | 't' :: 'r' :: 'u' :: 'e' :: rest => some (.bool true, rest)
    | 'f' :: 'a' :: 'l' :: 's' :: 'e' :: rest => some (.bool false, rest)
    | cs => (number? cs).map (fun r => (.number r.1, r.2))

/-- Reads one or more items and the closing bracket. -/
def items? : (fuel : Nat) → List Char → Option (List Json × List Char)
  | 0, _ => none
  | fuel + 1, cs =>
    match value? fuel cs with
    | none => none
    | some (x, rest) =>
      match skipBlanks rest with
      | ']' :: rest => some ([x], rest)
      | ',' :: rest => (items? fuel rest).map (fun r => (x :: r.1, r.2))
      | _ => none

/-- Reads one or more fields and the closing brace. -/
def fields? : (fuel : Nat) → List Char → Option (List (String × Json) × List Char)
  | 0, _ => none
  | fuel + 1, cs =>
    match key? cs with
    | none => none
    | some (k, rest) =>
      match value? fuel rest with
      | none => none
      | some (v, rest) =>
        match skipBlanks rest with
        | '\x7d' :: rest => some ([(k, v)], rest)
        | ',' :: rest => (fields? fuel rest).map (fun r => ((k, v) :: r.1, r.2))
        | _ => none
end

end Parser

/-- Reads a text that is one value between blanks. -/
def parse? (t : String) : Option Json :=
  let cs := t.toList
  match Parser.value? (2 * cs.length + 2) cs with
  | some (j, rest) => if (Parser.skipBlanks rest).isEmpty then some j else none
  | none => none

end Json
end Interchain
