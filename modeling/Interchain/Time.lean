/-
Instants, in milliseconds since the start of 1970, and their ISO 8601 text.

Dates follow the proleptic Gregorian calendar in universal time.  Years outside
0 to 9999 are written with a sign and six digits.  An instant more than 10 ^ 8 days
from 1970 has no text.
-/
import Interchain.Text.Decimal

namespace Interchain

structure Timestamp where
  milliseconds : Int
deriving DecidableEq

namespace Timestamp

/-- The furthest instant with a text. -/
def limit : Int := 8640000000000000

def msPerDay : Int := 86400000

/-- A day by year, month and day of the month. -/
structure Date where
  year : Int
  month : Nat
  day : Nat
deriving DecidableEq

/-- The date of a day counted from 1970-01-01.  Years are taken from March, so
that the leap day comes last, in cycles of 400. -/
def dateOfDay (d : Int) : Date :=
  let z := d + 719468
  let era := z.fdiv 146097
  let dayOfEra := (z - era * 146097).toNat
  let yearOfEra :=
    (dayOfEra - dayOfEra / 1460 + dayOfEra / 36524 - dayOfEra / 146096) / 365
  let dayOfYear := dayOfEra - (365 * yearOfEra + yearOfEra / 4 - yearOfEra / 100)
  let m := (5 * dayOfYear + 2) / 153
  let day := dayOfYear - (153 * m + 2) / 5 + 1
  let month := if m < 10 then m + 3 else m - 9
  let year : Int := yearOfEra + era * 400
  ⟨if month ≤ 2 then year + 1 else year, month, day⟩

def dayOfDate (d : Date) : Int :=
  let y := if d.month ≤ 2 then d.year - 1 else d.year
  let era := y.fdiv 400
  let yearOfEra := (y - era * 400).toNat
  let m := if 2 < d.month then d.month - 3 else d.month + 9
  let dayOfYear := (153 * m + 2) / 5 + d.day - 1
  let dayOfEra := yearOfEra * 365 + yearOfEra / 4 - yearOfEra / 100 + dayOfYear
  era * 146097 + dayOfEra - 719468

/-- A number with zeros in front of it, in at least `width` places. -/
def padded (width n : Nat) : String :=
  let ds := Nat.toDigits 10 n
  String.ofList (List.replicate (width - ds.length) '0' ++ ds)

def yearText (y : Int) : String :=
  if 0 ≤ y ∧ y ≤ 9999 then padded 4 y.toNat
  else (if y < 0 then "-" else "+") ++ padded 6 y.natAbs

def text? (t : Timestamp) : Option String :=
  if t.milliseconds < -limit ∨ limit < t.milliseconds then none
  else
    let day := t.milliseconds.fdiv msPerDay
    let ms := (t.milliseconds - day * msPerDay).toNat
    let d := dateOfDay day
    let h := padded 2 (ms / 3600000)
    let m := padded 2 (ms / 60000 % 60)
    let s := padded 2 (ms / 1000 % 60)
    let f := padded 3 (ms % 1000)
    some s!"{yearText d.year}-{padded 2 d.month}-{padded 2 d.day}T{h}:{m}:{s}.{f}Z"

end Timestamp
end Interchain
