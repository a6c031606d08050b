/-
What has been read of an instant, and the instant it comes to.

A draft holds up to three numbers for the date, up to four for the time of day,
and perhaps the name of a month, a half of the day and a zone.  Numbers that are
missing are the first of their kind: January, the first of the month, midnight.
-/
import Interchain.Time

namespace Interchain
namespace Timestamp

/-- A distance from universal time; its minutes may still be missing. -/
structure Zone where
  west : Bool
  hours : Nat
  minutes : Option Nat
deriving DecidableEq

namespace Zone

def ofHours (h : Int) : Zone := ⟨h < 0, h.natAbs, some 0⟩

def isUniversal (z : Zone) : Bool := z.hours = 0 ∧ z.minutes = some 0

/-- The distance of a zone in milliseconds, counted eastwards.  Its seconds are kept
in 32 bits, of which the highest stays clear. -/
def offset? (z : Zone) : Option Int :=
  let s : Nat := (z.hours * 3600 + z.minutes.getD 0 * 60) % 2 ^ 32
  let ms : Int := s * 1000
  if s < 2 ^ 31 then some (if z.west then -ms else ms) else none

end Zone

structure Draft where
  days : List Int := []
  month : Option Nat := none
  clock : List Nat := []
  half : Option Nat := none
  zone : Option Zone := none
  numbered : Bool := false
deriving DecidableEq

namespace Draft

def isDay (n : Int) : Bool := 1 ≤ n ∧ n ≤ 31

/-- A year of two digits is the one between 1950 and 2049. -/
def century (y : Int) : Int :=
  if 0 ≤ y ∧ y ≤ 49 then y + 2000 else if 50 ≤ y ∧ y ≤ 99 then y + 1900 else y

/-- Year, month and day, in the order in which they were read.  The year comes
first if it has to, or if the first number is too great for a day; otherwise it
comes last. -/
def arrange (yearFirst : Bool) (month : Option Nat) (a b c : Int) : Int × Int × Int :=
  match month with
  | some m => if isDay a then (b, m, a) else (a, m, b)
  | none => if yearFirst || !isDay a then (a, b, c) else (c, a, b)

/-- The date of a draft, if it holds a number for one.  A date with its year first is
taken as it stands. -/
def date? (yearFirst : Bool) (d : Draft) : Option Date :=
  match d.days with
  | [] => none
  | a :: rest =>
    let (y, m, e) := arrange yearFirst d.month a (rest.getD 0 1) (rest.getD 1 1)
    if 1 ≤ m ∧ m ≤ 12 ∧ isDay e then
      some ⟨if yearFirst then y else century y, m.toNat, e.toNat⟩
    else none

/-- A time of day in milliseconds; the day may end at hour 24. -/
def timeOfDay? (h m s ms : Nat) : Option Nat :=
  if (h < 24 ∧ m < 60 ∧ s < 60 ∧ ms < 1000) ∨ (h = 24 ∧ m = 0 ∧ s = 0 ∧ ms = 0) then
    some (h * 3600000 + m * 60000 + s * 1000 + ms)
  else none

/-- The hour of a half of the day, counted from midnight. -/
def hour? (half : Option Nat) (h : Nat) : Option Nat :=
  match half with
  | none => some h
  | some k => if h ≤ 12 then some (h % 12 + k) else none

def time? (d : Draft) : Option Nat :=
  match hour? d.half (d.clock.getD 0 0) with
  | some h => timeOfDay? h (d.clock.getD 1 0) (d.clock.getD 2 0) (d.clock.getD 3 0)
  | none => none

/-- The distance from universal time, which is meant if no zone is named. -/
def offset? (d : Draft) : Option Int :=
  match d.zone with
  | some z => z.offset?
  | none => some 0

def instant? (yearFirst : Bool) (d : Draft) : Option Timestamp :=
  match d.date? yearFirst, d.time?, d.offset? with
  | some date, some time, some offset => some ⟨dayOfDate date * msPerDay + time - offset⟩
  | _, _, _ => none

end Draft
end Timestamp
end Interchain
