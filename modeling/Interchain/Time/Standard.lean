/-
Reading instants in their standard form, ISO 8601.

A date is a year of four digits, or of six after a sign, with an optional month
and day.  A time of day may follow the letter T, with optional seconds and places,
and then Z or a distance from universal time.  A text that departs from this form
before the T is left to be read freely from where it departs; one that departs
after the T names no instant.
-/
import Interchain.Time.Draft
import Interchain.Time.Token

namespace Interchain
namespace Timestamp
namespace Standard

inductive Outcome
  | whole (d : Draft)
  | departs (d : Draft) (rest : List Token)
  | refused

/-- Reads a number of two digits within bounds. -/
def pair? (low high : Nat) : List Token → Option (Nat × List Token)
  | .number n 2 :: ts => if low ≤ n ∧ n ≤ high then some (n, ts) else none
  | _ => none

/-- Reads seconds and their places, up to the greatest second. -/
def readSeconds (high : Nat) (ts : List Token) : Option (List Nat × List Token) :=
  match pair? 0 high ts with
  | some (s, .point :: .number n length :: ts) =>
    if high = 0 ∧ n ≠ 0 then none else some ([s, Token.milliseconds n length], ts)
  | some (_, .point :: _) => none
  | some (s, ts) => some ([s], ts)
  | none => none

/-- Reads a time of day; nothing but zeros follows hour 24. -/
def readClock (ts : List Token) : Option (List Nat × List Token) :=
  match pair? 0 24 ts with
  | some (h, .colon :: ts) =>
    let high := if h = 24 then 0 else 59
    match pair? 0 high ts with
    | some (m, .colon :: ts) => (readSeconds high ts).map (fun r => (h :: m :: r.1, r.2))
    | some (m, ts) => some ([h, m], ts)
    | none => none
  | _ => none

/-- Reads hours and minutes, with a colon between them or without. -/
def readDistance (west : Bool) : List Token → Option (Zone × List Token)
  | .number n 4 :: ts =>
    if n / 100 < 24 ∧ n % 100 < 60 then some (⟨west, n / 100, some (n % 100)⟩, ts) else none
  | ts =>
    match pair? 0 23 ts with
    | some (h, .colon :: ts) => (pair? 0 59 ts).map (fun r => (⟨west, h, some r.1⟩, r.2))
    | _ => none

def readZone : List Token → Option (Option Zone × List Token)
  | .word .zulu :: ts => some (some (.ofHours 0), ts)
  | .sign west :: ts => (readDistance west ts).map (fun r => (some r.1, r.2))
  | ts => some (none, ts)

def readTime (d : Draft) (ts : List Token) : Outcome :=
  match readClock ts with
  | some (clock, ts) =>
    match readZone ts with
    | some (zone, []) => .whole { d with clock := clock, zone := zone }
    | _ => .refused
  | none => .refused

def readRest (days : List Int) : List Token → Outcome
  | [] => .whole { days := days, numbered := true }
  | .word .separator :: ts => readTime { days := days, numbered := true } ts
  | ts => .departs { days := days, numbered := true } ts

def readDay (y m : Int) : List Token → Outcome
  | .sign true :: ts =>
    match pair? 1 31 ts with
    | some (d, ts) => readRest [y, m, d] ts
    | none => .departs { days := [y, m], numbered := true } ts
  | ts => readRest [y, m] ts

def readMonth (y : Int) : List Token → Outcome
  | .sign true :: ts =>
    match pair? 1 12 ts with
    | some (m, ts) => readDay y m ts
    | none => .departs { days := [y], numbered := true } ts
  | ts => readRest [y] ts

/-- Reads a text in the standard form.  There is no year zero with a minus sign: of
such a year the digits are passed over. -/
def read : List Token → Outcome
  | .sign west :: .number n 6 :: ts =>
    if west ∧ n = 0 then .departs {} (.sign west :: ts)
    else readMonth (if west then -(n : Int) else n) ts
  | .number n 4 :: ts => readMonth n ts
  | ts => .departs {} ts

end Standard
end Timestamp
end Interchain
