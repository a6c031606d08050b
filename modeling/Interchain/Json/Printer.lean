/-
JSON text: no blanks, and in strings only quotes, backslashes and control
characters are escaped.  A number that is not finite is written as `null`.
-/
import Interchain.Json.Value
import Interchain.Bytes.Hex

namespace Interchain
namespace Json

def escape (c : Char) : List Char :=
  if c = '"' then ['\\', '"']
  else if c = '\\' then ['\\', '\\']
  else if c = '\x08' then ['\\', 'b']
  else if c = '\t' then ['\\', 't']
  else if c = '\n' then ['\\', 'n']
  else if c = '\x0c' then ['\\', 'f']
  else if c = '\r' then ['\\', 'r']
  else if c.toNat < 32 then '\\' :: 'u' :: Hex.ofNat 4 c.toNat
  else [c]

def quote (t : String) : List Char := '"' :: (t.toList.flatMap escape ++ ['"'])

def printNumber (x : Float) : List Char :=
  match Double.parts x with
  | .finite _ _ _ => (Double.text x).toList
  | .nan | .infinite _ => ['n', 'u', 'l', 'l']

mutual
def print : Json → List Char
  | .null => ['n', 'u', 'l', 'l']
  | .bool true => ['t', 'r', 'u', 'e']
  | .bool false => ['f', 'a', 'l', 's', 'e']
  | .number x => printNumber x
  | .string t => quote t
  | .array [] => ['[', ']']
  | .array (x :: xs) => '[' :: (print x ++ printItems xs)
  | .object [] => ['\x7b', '\x7d']
  | .object (f :: fs) => '\x7b' :: (printField f ++ printFields fs)

/-- The items after the first. -/
def printItems : List Json → List Char
  | [] => [']']
  | x :: xs => ',' :: (print x ++ printItems xs)

def printField : String × Json → List Char
  | (k, v) => quote k ++ ':' :: print v

/-- The fields after the first. -/
def printFields : List (String × Json) → List Char
  | [] => ['\x7d']
  | f :: fs => ',' :: (printField f ++ printFields fs)
end

def render (j : Json) : String := String.ofList (print j)

end Json
end Interchain
