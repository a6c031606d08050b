/-
UTF-8, read strictly.

Reading stops at the first octet sequence that is no character.  A fault names
the offset of the octet at which it shows: a continuation octet that is missing
is named by the octet in its place, every other fault by the octet that opens
the sequence.
-/
import Interchain.Bytes

namespace Interchain
namespace Utf8

inductive Reason
  | unexpectedContinuation
  | badLead
  | overrun
  | missingContinuation
  | outOfRange
  | surrogate
  | overlong
deriving DecidableEq

/-- Why octets are no text, and where. -/
structure Fault where
  offset : Nat
  reason : Reason
deriving DecidableEq

def Reason.message : Reason → String
  | .unexpectedContinuation => "UNEXPECTED_CONTINUE"
  | .badLead => "BAD_PREFIX"
  | .overrun => "OVERRUN"
  | .missingContinuation => "MISSING_CONTINUE"
  | .outOfRange => "OUT_OF_RANGE"
  | .surrogate => "UTF16_SURROGATE"
  | .overlong => "OVERLONG"

def Fault.message (f : Fault) : String :=
  s!"invalid codepoint at offset {f.offset}; {f.reason.message}"

def encode (t : String) : Bytes := t.toList.flatMap String.utf8EncodeChar

/-- Appends the six bits of each continuation octet to `code`. -/
def extend : (offset code : Nat) → Bytes → Except Fault Nat
  | _, code, [] => .ok code
  | offset, code, b :: bs =>
    if b.toNat / 64 = 2 then extend (offset + 1) (code * 64 + b.toNat % 64) bs
    else .error ⟨offset, .missingContinuation⟩

/-- Reads the `count` continuation octets of a character whose lead octet stands
at `offset` and holds the bits `code`.  The character has to be above `least`,
the greatest that fewer octets can write. -/
def readTail (offset count least code : Nat) (rest : Bytes) : Except Fault (Char × Nat) :=
  if rest.length < count then .error ⟨offset, .overrun⟩
  else
    match extend (offset + 1) code (rest.take count) with
    | .error f => .error f
    | .ok n =>
      if 0x10FFFF < n then .error ⟨offset, .outOfRange⟩
      else if 0xD800 ≤ n ∧ n ≤ 0xDFFF then .error ⟨offset, .surrogate⟩
      else if n ≤ least then .error ⟨offset, .overlong⟩
      else .ok (Char.ofNat n, count)

/-- Reads the character that opens with `lead`, and counts its continuation octets. -/
def readChar (offset : Nat) (lead : UInt8) (rest : Bytes) : Except Fault (Char × Nat) :=
  let b := lead.toNat
  if b < 0x80 then .ok (Char.ofNat b, 0)
  else if b < 0xC0 then .error ⟨offset, .unexpectedContinuation⟩
  else if b < 0xE0 then readTail offset 1 0x7F (b - 0xC0) rest
  else if b < 0xF0 then readTail offset 2 0x7FF (b - 0xE0) rest
  else if b < 0xF8 then readTail offset 3 0xFFFF (b - 0xF0) rest
  else .error ⟨offset, .badLead⟩

/-- Reads characters from `offset` on, passing over `skip` octets that belong to
the character before. -/
def readFrom : (skip offset : Nat) → Bytes → Except Fault (List Char)
  | _, _, [] => .ok []
  | skip + 1, offset, _ :: rest => readFrom skip (offset + 1) rest
  | 0, offset, lead :: rest =>
    match readChar offset lead rest with
    | .error f => .error f
    | .ok (c, count) => (readFrom count (offset + 1) rest).map (c :: ·)

def decode (b : Bytes) : Except Fault String := (readFrom 0 0 b).map String.ofList

end Utf8
end Interchain
