/-
The tokens of a text that names an instant.

A run of digits is a number and a run of letters is a word; a remark in
parentheses is one token, and any other character stands alone.  Of a word only the
first three letters count, in either case, and only the name of a month may be
longer than that.
-/
import Interchain.Text.Blank
import Interchain.Text.Digit

namespace Interchain
namespace Timestamp

/-- What a word says of an instant.  A zone is given by its hours east of
universal time. -/
inductive Word
  | month (number : Nat)
  | half (hours : Nat)
  | zulu
  | zone (hours : Int)
  | separator
  | unknown
deriving DecidableEq

namespace Word

def months : List String :=
  ["jan", "feb", "mar", "apr", "may", "jun", "jul", "aug", "sep", "oct", "nov", "dec"]

def short : List (String × Word) :=
  [("am", .half 0), ("pm", .half 12), ("z", .zulu), ("ut", .zone 0), ("utc", .zone 0),
   ("gmt", .zone 0), ("cdt", .zone (-5)), ("cst", .zone (-6)), ("edt", .zone (-4)),
   ("est", .zone (-5)), ("mdt", .zone (-6)), ("mst", .zone (-7)), ("pdt", .zone (-7)),
   ("pst", .zone (-8)), ("t", .separator)]

def ofLetters (cs : List Char) : Word :=
  let start := String.ofList ((cs.take 3).map Digit.lower)
  match months.findIdx? (fun m => m = start) with
  | some i => .month (i + 1)
  | none => if cs.length ≤ 3 then (short.lookup start).getD .unknown else .unknown

/-- The hours of a word that names a zone. -/
def hours? : Word → Option Int
  | .zulu => some 0
  | .zone h => some h
  | _ => none

end Word

inductive Token
  | number (value length : Nat)
  | word (w : Word)
  | sign (west : Bool)
  | colon
  | point
  | close
  | blank
  | other
deriving DecidableEq

namespace Token

/-- The number of a run of digits: nine digits from the first that is not zero.
The length counts all of them. -/
def ofDigits (cs : List Char) : Token :=
  .number (Nat.ofDigitChars 10 ((cs.dropWhile (fun c => c = '0')).take 9) 0) cs.length

/-- Letters are what stands from `A` on and is no space; line ends are letters. -/
def isLetter (c : Char) : Bool :=
  'A' ≤ c && (!Blank.isBlank c || (0x2028 ≤ c.toNat && c.toNat ≤ 0x2029))

def ofMark (c : Char) : Token :=
  match c with
  | '+' => .sign false
  | '-' => .sign true
  | ':' => .colon
  | '.' => .point
  | ')' => .close
  | _ => if Blank.isBlank c then .blank else .other

/-- What follows the remarks that are open, up to the end of the text if one is
not closed. -/
def afterRemark : Nat → List Char → List Char
  | 0, cs => cs
  | _ + 1, [] => []
  | n + 1, c :: cs => afterRemark (if c = '(' then n + 2 else if c = ')' then n else n + 1) cs

/-- The first token of a text that starts with `c`, and the text after it. -/
def first (c : Char) (cs : List Char) : Token × List Char :=
  if c.isDigit then (ofDigits (c :: cs.takeWhile Char.isDigit), cs.dropWhile Char.isDigit)
  else if isLetter c then
    (.word (.ofLetters (c :: cs.takeWhile isLetter)), cs.dropWhile isLetter)
  else if c = '(' then (.other, afterRemark 1 cs)
  else (ofMark c, cs)

theorem length_afterRemark_le (n : Nat) (cs : List Char) :
    (afterRemark n cs).length ≤ cs.length := by
  induction cs generalizing n with
  | nil => cases n <;> exact Nat.le_refl 0
  | cons c cs ih =>
    cases n with
    | zero => exact Nat.le_refl _
    | succ n => exact Nat.le_succ_of_le (ih _)

theorem length_first_le (c : Char) (cs : List Char) : (first c cs).2.length ≤ cs.length := by
  unfold first
  split
  · exact (List.dropWhile_sublist _).length_le
  · split
    · exact (List.dropWhile_sublist _).length_le
    · split
      · exact length_afterRemark_le 1 cs
      · exact Nat.le_refl _

def scan : List Char → List Token
  | [] => []
  | c :: cs => (first c cs).1 :: scan (first c cs).2
termination_by cs => cs.length
decreasing_by exact Nat.lt_succ_of_le (length_first_le c cs)

/-- The places of a second as milliseconds: a number of so many digits behind the
point, of which the first three count. -/
def milliseconds (value length : Nat) : Nat :=
  if length = 1 then value * 100
  else if length = 2 then value * 10
  else value / 10 ^ (min length 9 - 3)

end Token
end Timestamp
end Interchain
