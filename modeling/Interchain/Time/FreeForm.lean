/-
Reading instants in any other form.

Numbers, names of months, halves of the day and zones may come in many orders.  A
number before a colon or a point belongs to the time of day, a number after a sign
to the zone, and every other number to the date.  Words that mean nothing may only
stand in front of the first number.
-/
import Interchain.Time.Draft
import Interchain.Time.Token

namespace Interchain
namespace Timestamp
namespace FreeForm

/-- What a token makes of a draft, with the number of tokens after it that it takes up. -/
abbrev Step := Option (Draft × Nat)

/-- Whether a number can be the next part of a time of day that has begun. -/
def continuesClock (d : Draft) (n : Nat) : Bool :=
  match d.clock.length with
  | 1 | 2 => n < 60
  | 3 => n < 1000
  | _ => false

/-- Whether a number can be the minutes that a zone still misses. -/
def completesZone (d : Draft) (n : Nat) : Bool :=
  n < 60 && d.zone.any (fun z => z.minutes.isNone)

/-- Ends the time of day; the parts it misses are zero. -/
def endClock (ns : List Nat) (d : Draft) : Draft :=
  { d with clock := (d.clock ++ ns ++ [0, 0, 0]).take 4 }

/-- What may follow the end of a time of day. -/
def afterClock : List Token → Bool
  | [] | .blank :: _ | .sign _ :: _ | .word .zulu :: _ => true
  | _ => false

/-- A minus sign that ends a part of the date is taken up with it. -/
def joint : List Token → Nat
  | .sign true :: _ => 1
  | _ => 0

/-- A number with no colon after it. -/
def placeNumber (d : Draft) (n : Nat) (ts : List Token) : Step :=
  if completesZone d n then
    some ({ d with zone := d.zone.map (fun z => { z with minutes := some n }) }, 0)
  else if continuesClock d n then
    if afterClock ts then some (endClock [n] d, 0) else none
  else if d.days.length < 3 then some ({ d with days := d.days ++ [(n : Int)] }, joint ts)
  else none

/-- A number with a point after it. -/
def placePointed (d : Draft) (n : Nat) (ts : List Token) : Step :=
  if continuesClock d n then
    match ts with
    | .number p length :: _ => some (endClock [n, Token.milliseconds p length] d, 2)
    | _ => none
  else (placeNumber d n ts).map (fun r => (r.1, r.2 + 1))

/-- A number with a colon after it. -/
def placeClock (d : Draft) (n : Nat) : List Token → Step
  | .colon :: _ => if d.clock = [] then some ({ d with clock := [n, 0] }, 2) else none
  | ts =>
    if d.clock.length < 4 then
      some ({ d with clock := d.clock ++ [n] }, if ts.head? = some .point then 2 else 1)
    else none

def stepNumber (d : Draft) (n : Nat) : List Token → Step
  | .colon :: ts => placeClock d n ts
  | .point :: ts => placePointed d n ts
  | ts => placeNumber d n ts

/-- A word that means nothing: it stands before every number and touches none. -/
def stepFiller (d : Draft) : List Token → Step
  | .number _ _ :: _ => none
  | _ => if d.numbered then none else some (d, 0)

def stepWord (d : Draft) (w : Word) (ts : List Token) : Step :=
  match w with
  | .half k => if d.clock = [] then stepFiller d ts else some ({ d with half := some k }, 0)
  | .month m => some ({ d with month := some m }, joint ts)
  | w =>
    match w.hours? with
    | some h =>
      if d.numbered then some ({ d with zone := some (.ofHours h) }, 0) else stepFiller d ts
    | none => stepFiller d ts

/-- The zone of a number of hours, or of hours and minutes in one.  Before a colon it
is hours alone, and the minutes are still missing. -/
def zone? (west : Bool) (n length : Nat) : List Token → Option Zone
  | .colon :: _ => some ⟨west, n, none⟩
  | _ =>
    if length = 1 ∨ length = 2 then some ⟨west, n, some 0⟩
    else if length = 3 ∨ length = 4 then some ⟨west, n / 100, some (n % 100)⟩
    else none

def stepZone (d : Draft) (west : Bool) : List Token → Step
  | .number n length :: ts => (zone? west n length ts).map (fun z => ({ d with zone := some z }, 1))
  | ts => (zone? west 0 0 ts).map (fun z => ({ d with zone := some z }, 0))

/-- What a token makes of a draft, given the tokens after it.  A sign names a zone
once there is a time of day or a word for universal time; any other sign, and a
parenthesis that closes none, is passed over before the first number only. -/
def step (d : Draft) (t : Token) (ts : List Token) : Step :=
  match t with
  | .number n _ => stepNumber { d with numbered := true } n ts
  | .word w => stepWord d w ts
  | .sign west =>
    if d.zone.any Zone.isUniversal ∨ d.clock ≠ [] then
      stepZone { d with numbered := true } west ts
    else if d.numbered then none
    else some (d, 0)
  | .close => if d.numbered then none else some (d, 0)
  | _ => some (d, 0)

/-- Reads on, passing over the tokens that the last step has taken up. -/
def readFrom (d : Draft) : Nat → List Token → Option Draft
  | _, [] => some d
  | k + 1, _ :: ts => readFrom d k ts
  | 0, t :: ts =>
    match step d t ts with
    | some (d, k) => readFrom d k ts
    | none => none

def read (d : Draft) (ts : List Token) : Option Draft := readFrom d 0 ts

end FreeForm
end Timestamp
end Interchain
