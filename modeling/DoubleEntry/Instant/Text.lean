import DoubleEntry.Instant.Basic
import DoubleEntry.Text.Blank
import DoubleEntry.Json.Codec

/-!
# Texts of instants

An instant is written in universal time as `YYYY-MM-DDThh:mm:ss`, a fraction and `Z`. The fraction
has 0, 3, 6 or 9 digits, the fewest that lose nothing, or always six. It is read with any offset.
The strict reader wants every part at its width; the lenient one lets blanks stand between the parts
and takes short and signed numbers.

## Main definitions

* `Instant.toText`, `Instant.microText`, `Instant.nanoText`: the written forms.
* `Instant.ofText?`, `Instant.ofStrictText?`: the two readers.
* `Instant.Unreadable`: why a text is no instant.
-/

namespace DoubleEntry

namespace Instant

/-! ### Writing -/

/-- A year: four digits, and a sign if these do not suffice. -/
def yearChars (y : Int) : List Char :=
  if 0 ≤ y ∧ y ≤ 9999 then paddedDigits 4 y.toNat
  else (if y < 0 then '-' else '+') :: paddedDigits 4 y.natAbs

/-- Date and time of day down to the second; the leap second is the sixtieth. -/
def secondChars (i : Instant) : List Char :=
  let (y, m, d) := civilOfDays (i.seconds / day)
  let t := (i.seconds % day).toNat
  let s := t % 60 + i.nanos / second
  yearChars y ++ '-' :: paddedDigits 2 m ++ '-' :: paddedDigits 2 d ++ 'T' ::
    paddedDigits 2 (t / 3600) ++ ':' :: paddedDigits 2 (t / 60 % 60) ++ ':' :: paddedDigits 2 s

/-- Nanoseconds within the second that is written. -/
def fraction (i : Instant) : Nat := i.nanos % second

/-- The fraction in the fewest groups of three digits that lose nothing. -/
def shortFraction (n : Nat) : List Char :=
  if n = 0 then []
  else if n % 1000000 = 0 then '.' :: paddedDigits 3 (n / 1000000)
  else if n % 1000 = 0 then '.' :: paddedDigits 6 (n / 1000)
  else '.' :: paddedDigits 9 n

/-- The text of an instant, with the fewest digits that lose nothing. -/
def toText (i : Instant) : String :=
  String.ofList (i.secondChars ++ shortFraction i.fraction ++ ['Z'])

/-- The text of an instant with six digits after the point, the rest cut off. -/
def microText (i : Instant) : String :=
  String.ofList (i.secondChars ++ '.' :: paddedDigits 6 (i.fraction / 1000) ++ ['Z'])

/-- The text of an instant with nine digits after the point. -/
def nanoText (i : Instant) : String :=
  String.ofList (i.secondChars ++ '.' :: paddedDigits 9 i.fraction ++ ['Z'])

/-! ### Reading -/

/-- Why a text is no instant. -/
inductive Unreadable where
  | outOfRange
  | impossible
  | invalid
  | tooShort
  | tooLong
deriving DecidableEq

/-- The wording for an unreadable text. -/
def Unreadable.message : Unreadable → String
  | outOfRange => "input is out of range"
  | impossible => "no possible date and time matching input"
  | invalid => "input contains invalid characters"
  | tooShort => "premature end of input"
  | tooLong => "trailing input"

/-- Reads between `least` and `most` digits. -/
def scanNumber (least most : Nat) (cs : List Char) : Except Unreadable (Nat × List Char) :=
  let ds := (cs.take most).takeWhile fun c => (digitValue? c).isSome
  if cs.length < least then .error .tooShort
  else if ds.length < least then .error .invalid
  else
    let n := ds.foldl (fun n c => n * 10 + (digitValue? c).getD 0) 0
    if n < twoPow 63 then .ok (n, cs.drop ds.length) else .error .outOfRange

/-- Reads one character. -/
def scanChar (c : Char) : List Char → Except Unreadable (List Char)
  | [] => .error .tooShort
  | d :: cs => if d = c then .ok cs else .error .invalid

/-- Reads a fraction of a second after its point; digits past the ninth are dropped. -/
def scanFraction (cs : List Char) : Except Unreadable (Nat × List Char) := do
  let (n, rest) ← scanNumber 1 9 cs
  let count := cs.length - rest.length
  return (n * tenPow (9 - count), rest.dropWhile fun c => (digitValue? c).isSome)

/-- Reads the mark between date and time. -/
def scanMark : List Char → Except Unreadable (List Char)
  | [] => .error .tooShort
  | c :: cs => if c = 't' ∨ c = 'T' ∨ c = ' ' then .ok cs else .error .invalid

/-- Reads two digits of an offset. -/
def scanPair (cs : List Char) : Except Unreadable (Nat × List Char) :=
  match cs with
  | a :: b :: rest =>
    match digitValue? a, digitValue? b with
    | some x, some y => .ok (x * 10 + y, rest)
    | _, _ => .error .invalid
  | _ => .error .tooShort

/-- Reads an offset from universal time in seconds; `colon` reads what stands between hours and
minutes. -/
def scanOffset (colon : List Char → Except Unreadable (List Char)) (cs : List Char) :
    Except Unreadable (Int × List Char) := do
  match cs with
  | [] => throw .tooShort
  | 'Z' :: rest => return (0, rest)
  | 'z' :: rest => return (0, rest)
  | sign :: rest =>
    if sign ≠ '+' ∧ sign ≠ '-' ∧ sign ≠ '−' then throw .invalid
    let (hours, rest) ← scanPair rest
    let (minutes, rest) ← scanPair (← colon rest)
    if 60 ≤ minutes then throw .outOfRange
    let offset : Int := hours * 3600 + minutes * 60
    return (if sign = '+' then offset else -offset, rest)

/-- The parts of a text, before their ranges are checked. -/
structure Reading where
  year : Int
  month : Nat
  dayOfMonth : Nat
  hour : Nat
  minute : Nat
  second : Nat
  nanos : Nat
  offset : Int

/-- The instant of the parts of a text, if each is in its range. -/
def Reading.instant (r : Reading) : Except Unreadable Instant :=
  if ¬ (1 ≤ r.month ∧ r.month ≤ 12) ∨ ¬ (1 ≤ r.dayOfMonth ∧
      r.dayOfMonth ≤ daysInMonth r.year r.month) ∨ r.hour > 23 ∨ r.minute > 59 ∨ r.second > 60 ∨
      r.year < -262143 ∨ 262142 < r.year ∨ 86400 ≤ r.offset.natAbs then
    .error .outOfRange
  else
    let (s, leap) := if r.second = 60 then (59, Instant.second) else (r.second, 0)
    let t : Int := (daysOfCivil r.year r.month r.dayOfMonth) * day +
      (r.hour * 3600 + r.minute * 60 + s : Nat)
    match of? (t - r.offset) (r.nanos + leap) with
    | some i => .ok i
    | none => .error .impossible

/-- Reads the year of the lenient form: signed, or of at most four digits. -/
def scanYear (cs : List Char) : Except Unreadable (Int × List Char) :=
  match trimStartChars cs with
  | '-' :: rest => do
    let (n, rest) ← scanNumber 1 rest.length rest
    return (-(n : Int), rest)
  | '+' :: rest => do
    let (n, rest) ← scanNumber 1 rest.length rest
    return ((n : Int), rest)
  | rest => do
    let (n, rest) ← scanNumber 1 4 rest
    return ((n : Int), rest)

/-- Reads a number of one or two digits with blanks around it, and the character after it. -/
def scanPart (after : Option Char) (cs : List Char) : Except Unreadable (Nat × List Char) := do
  let (n, rest) ← scanNumber 1 2 (trimStartChars cs)
  match after with
  | none => return (n, rest)
  | some c => return (n, ← scanChar c (trimStartChars rest))

/-- Reads a fraction, if a point begins one. -/
def scanOptFraction : List Char → Except Unreadable (Nat × List Char)
  | '.' :: rest => scanFraction rest
  | cs => .ok (0, cs)

/-- The letters of universal time in either case. -/
def isUniversal (cs : List Char) : Bool := (cs.take 3).map Char.toUpper == ['U', 'T', 'C']

/-- The lenient reader. -/
def ofText? (s : String) : Except Unreadable Instant := do
  let (year, cs) ← scanYear s.toList
  let cs ← scanChar '-' (trimStartChars cs)
  let (month, cs) ← scanPart (some '-') cs
  let (dayOfMonth, cs) ← scanPart none cs
  let cs ← scanMark cs
  let (hour, cs) ← scanPart (some ':') cs
  let (minute, cs) ← scanPart (some ':') cs
  let (second, cs) ← scanPart none cs
  let (nanos, cs) ← scanOptFraction cs
  let cs := trimStartChars cs
  let (offset, cs) ←
    if isUniversal cs then pure ((0 : Int), cs.drop 3)
    else scanOffset (fun cs => .ok (cs.dropWhile fun c => c = ':' ∨ isBlank c)) cs
  if !(trimStartChars cs).isEmpty then throw .tooLong
  Reading.instant ⟨year, month, dayOfMonth, hour, minute, second, nanos, offset⟩

/-- The strict reader. -/
def ofStrictText? (s : String) : Except Unreadable Instant := do
  let (year, cs) ← scanNumber 4 4 s.toList
  let (month, cs) ← scanNumber 2 2 (← scanChar '-' cs)
  let (dayOfMonth, cs) ← scanNumber 2 2 (← scanChar '-' cs)
  let (hour, cs) ← scanNumber 2 2 (← scanMark cs)
  let (minute, cs) ← scanNumber 2 2 (← scanChar ':' cs)
  let (second, cs) ← scanNumber 2 2 (← scanChar ':' cs)
  let (nanos, cs) ← scanOptFraction cs
  let (offset, cs) ← scanOffset (scanChar ':') cs
  if 86340 < offset.natAbs then throw .outOfRange
  if !cs.isEmpty then throw .tooLong
  Reading.instant ⟨(year : Int), month, dayOfMonth, hour, minute, second, nanos, offset⟩

/-! ### JSON -/

/-- The instant as a JSON value. -/
def toJson (i : Instant) : Json := .str i.toText

/-- Reads an instant from its text. -/
def decoder : Decoder Instant :=
  (Decoder.textAs "an RFC 3339 formatted date and time string").andThen fun s =>
    match ofText? s with
    | .ok i => .ok i
    | .error e => .error (.other e.message)

end Instant

instance : ToJson Instant := ⟨Instant.toJson⟩
instance : FromJson Instant := ⟨Instant.decoder⟩

end DoubleEntry
