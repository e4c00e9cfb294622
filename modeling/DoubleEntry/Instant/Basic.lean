/-!
# Instants

An `Instant` is a moment of universal time: whole seconds since the start of 1970 and nanoseconds
within the second. In the last second of a minute the nanoseconds may run on to a second full
second, the leap second. The years are those from -262143 to 262142.

## Main definitions

* `Instant`: the type, with its bounds. `Instant.of?`: an instant of given parts.
* `Instant.daysOfCivil`, `Instant.civilOfDays`: the calendar, in days since the start of 1970.
* `Instant.shift`: an instant some nanoseconds later, `none` beyond the last year.
* `Instant.since`: the nanoseconds from one instant to another.
* `Instant.truncate`: the instant without the nanoseconds below a microsecond.
-/

namespace DoubleEntry

/-- A moment of universal time. -/
structure Instant where
  seconds : Int
  nanos : Nat
  lower : -8334601228800 ≤ seconds
  upper : seconds ≤ 8210266876799
  nanos_lt : nanos < 2000000000
  leap : 1000000000 ≤ nanos → seconds % 60 = 59
deriving DecidableEq

namespace Instant

/-- Nanoseconds of a second. -/
abbrev second : Nat := 1000000000

/-- Seconds of a day. -/
abbrev day : Int := 86400

/-- The instant of these parts, if they are within the bounds. -/
def of? (seconds : Int) (nanos : Nat) : Option Instant :=
  if h : (-8334601228800 ≤ seconds ∧ seconds ≤ 8210266876799) ∧ nanos < 2000000000 ∧
      (1000000000 ≤ nanos → seconds % 60 = 59) then
    some ⟨seconds, nanos, h.1.1, h.1.2, h.2.1, h.2.2⟩
  else none

/-- The start of 1970. -/
def epoch : Instant := ⟨0, 0, by decide, by decide, by decide, by decide⟩

instance : Inhabited Instant := ⟨epoch⟩

/-- Order in time: a leap second comes after the second that it follows. -/
def before (a b : Instant) : Bool :=
  decide (a.seconds < b.seconds) || (a.seconds == b.seconds && decide (a.nanos < b.nanos))

instance : LT Instant := ⟨fun a b => a.before b = true⟩

instance (a b : Instant) : Decidable (a < b) := inferInstanceAs (Decidable (a.before b = true))

instance : LE Instant := ⟨fun a b => ¬ b < a⟩

instance (a b : Instant) : Decidable (a ≤ b) := inferInstanceAs (Decidable (¬ b < a))

/-- Days from the start of 1970 to a date; years are counted from March within eras of 400. -/
def daysOfCivil (year : Int) (month dayOfMonth : Nat) : Int :=
  let y := if month ≤ 2 then year - 1 else year
  let era := y / 400
  let yoe := (y - era * 400).toNat
  let mp := if month ≤ 2 then month + 9 else month - 3
  let doy := (153 * mp + 2) / 5 + dayOfMonth - 1
  let doe := yoe * 365 + yoe / 4 - yoe / 100 + doy
  era * 146097 + doe - 719468

/-- The date that many days from the start of 1970: year, month and day of the month. -/
def civilOfDays (days : Int) : Int × Nat × Nat :=
  let z := days + 719468
  let era := z / 146097
  let doe := (z - era * 146097).toNat
  let yoe := (doe - doe / 1460 + doe / 36524 - doe / 146096) / 365
  let doy := doe - (365 * yoe + yoe / 4 - yoe / 100)
  let mp := (5 * doy + 2) / 153
  let month := if mp < 10 then mp + 3 else mp - 9
  let year := (yoe : Int) + era * 400
  (if month ≤ 2 then year + 1 else year, month, doy - (153 * mp + 2) / 5 + 1)

/-- A leap year of the calendar. -/
def isLeapYear (year : Int) : Bool :=
  year % 4 == 0 && (year % 100 != 0 || year % 400 == 0)

/-- Days of a month. -/
def daysInMonth (year : Int) (month : Nat) : Nat :=
  if month = 2 then (if isLeapYear year then 29 else 28)
  else if month = 4 ∨ month = 6 ∨ month = 9 ∨ month = 11 then 30
  else 31

/-- The year of an instant. -/
def year (i : Instant) : Int := (civilOfDays (i.seconds / day)).1

/-- The instant `n` nanoseconds later (earlier if `n` is negative). Leaving a leap second takes the
instant back to the ordinary second before the move, or past it. -/
def shift (i : Instant) (n : Int) : Option Instant :=
  let secs := n.tdiv second
  let part := n.tmod second
  let frac : Int := i.nanos
  if second ≤ i.nanos ∧ secs = 0 ∧ ¬ (0 < part ∧ 2 * second ≤ frac + part) then
    of? i.seconds (frac + part).toNat
  else
    let (base, frac) : Int × Int :=
      if second ≤ i.nanos then
        if 0 < secs ∨ 0 < part then (i.seconds, frac - second) else (i.seconds + 1, frac - second)
      else (i.seconds, frac)
    let f := frac + part
    let s := base + secs
    if f < 0 then of? (s - 1) (f + second).toNat
    else if second ≤ f then of? (s + 1) (f - second).toNat
    else of? s f.toNat

/-- Nanoseconds from `b` to `a`. A leap second counts if the time of day passes over it. -/
def since (a b : Instant) : Int :=
  let ta := a.seconds % day
  let tb := b.seconds % day
  let days := a.seconds / day - b.seconds / day
  let passed : Int :=
    if tb < ta ∧ second ≤ b.nanos then 1 else if ta < tb ∧ second ≤ a.nanos then -1 else 0
  (days * day + (ta - tb) + passed) * second + ((a.nanos : Int) - b.nanos)

/-- The instant without the nanoseconds below a microsecond. -/
def truncate (i : Instant) : Instant :=
  { i with
    nanos := i.nanos - i.nanos % 1000
    nanos_lt := Nat.lt_of_le_of_lt (Nat.sub_le _ _) i.nanos_lt
    leap := fun h => i.leap (Nat.le_trans h (Nat.sub_le _ _)) }

end Instant

end DoubleEntry
