/-
Account addresses.

An address is a number.  It is read from 40 hexadecimal digits, with or without
`0x`, or from an ICAP account number, and it is written as `0x` and its digits
with a checksum carried by their case: a letter is upper case where the digest
of the lower-case digits has a nibble of 8 or more.  Digits of mixed case are
read only if their case is the one `render` writes.

An ICAP number of 31 digits reaches beyond 160 bits.  Such an address has 41
hexadecimal digits, of which the last carries no checksum, and its own text is
not read back.
-/
import Interchain.Bytes.Hex
import Interchain.Hash.Keccak

namespace Interchain

structure Address where
  value : Nat
  value_lt : value < 36 ^ 31
deriving DecidableEq

namespace Address

inductive Fault
  | malformed
  | checksum
  | icapChecksum
deriving DecidableEq

def Fault.message : Fault → String
  | .malformed => "invalid address"
  | .checksum => "bad address checksum"
  | .icapChecksum => "bad icap checksum"

def ofNat (n : Nat) (h : n < 2 ^ 160) : Address :=
  ⟨n, Nat.lt_of_lt_of_le h (by decide)⟩

/-! ## Text -/

/-- The lower-case digits: 40, or 41 beyond 160 bits. -/
def digits (a : Address) : List Char :=
  Hex.ofNat (if a.value < 2 ^ 160 then 40 else 41) a.value

def nibbles (b : Bytes) : List Nat := b.flatMap (fun x => [x.toNat / 16, x.toNat % 16])

/-- Lower-case digits with the checksum in the case of the first 40. -/
def checksummed (ds : List Char) : List Char :=
  let marks := nibbles (Keccak.hash ((ds.take 40).map (fun c => UInt8.ofNat c.toNat)))
  (ds.take 40).zipWith (fun c n => if n < 8 then c else Digit.upper c) marks ++ ds.drop 40

def render (a : Address) : String := String.ofList ('0' :: 'x' :: checksummed a.digits)

def renderLower (a : Address) : String := String.ofList ('0' :: 'x' :: a.digits)

/-! ## Hexadecimal digits -/

def unmarked : List Char → List Char
  | '0' :: 'x' :: ds => ds
  | ds => ds

def isMixedCase (ds : List Char) : Bool :=
  ds.any (fun c => 'A' ≤ c && c ≤ 'F') && ds.any (fun c => 'a' ≤ c && c ≤ 'f')

def ofDigits (ds : List Char) (h : ds.length = 40) : Except Fault Address :=
  match hv : Digit.readAll? 16 ds with
  | none => .error .malformed
  | some vs =>
    if isMixedCase ds && ds != checksummed (ds.map Digit.lower) then .error .checksum
    else .ok (ofNat (Digit.number vs) (by
      have := Digit.number_lt vs
      rw [Digit.length_readAll? hv, h] at this
      exact Nat.lt_of_lt_of_le this (by decide)))

/-! ## ICAP account numbers -/

/-- The number that base-36 digits spell once each letter is put down as two decimal digits. -/
def expanded (ds : List (Fin 36)) : Nat :=
  ds.foldl (fun n d => if d.val < 10 then n * 10 + d.val else n * 100 + d.val) 0

/-- What the two check digits have to be: 98 less the remainder by 97 of the
expanded digits followed by the country mark and `00`. -/
def icapCheck (ds : List (Fin 36)) : Nat := 98 - expanded (ds ++ [33, 14, 0, 0]) % 97

def ofIcap (c₁ c₂ : Char) (ds : List Char) (h : ds.length ≤ 31) : Except Fault Address :=
  match Digit.read? 10 c₁, Digit.read? 10 c₂, hv : Digit.readAll? 36 ds with
  | some d₁, some d₂, some vs =>
    if 10 * d₁.val + d₂.val = icapCheck vs then
      .ok ⟨Digit.number vs, by
        refine Nat.lt_of_lt_of_le (Digit.number_lt vs) (Nat.pow_le_pow_right (by decide) ?_)
        rw [Digit.length_readAll? hv]
        exact h⟩
    else .error .icapChecksum
  | _, _, _ => .error .malformed

def parseIcap : List Char → Except Fault Address
  | 'X' :: 'E' :: c₁ :: c₂ :: ds =>
    if h : 30 ≤ ds.length ∧ ds.length ≤ 31 then ofIcap c₁ c₂ ds h.2 else .error .malformed
  | _ => .error .malformed

def parse (t : String) : Except Fault Address :=
  let ds := unmarked t.toList
  if h : ds.length = 40 then ofDigits ds h else parseIcap t.toList

def parse? (t : String) : Option Address := (parse t).toOption

/-- What reading the text of an address gives: the address, unless it is beyond 160 bits. -/
def reread (a : Address) : Except Fault Address :=
  if a.value < 2 ^ 160 then .ok a else .error .malformed

end Address
end Interchain
