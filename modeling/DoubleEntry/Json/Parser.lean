import DoubleEntry.Json.Draft
import DoubleEntry.Power

/-!
# Reading JSON

The grammar of JSON over a list of characters. A number without fraction and exponent is an
integer if it fits in 64 bits; all others are floating point numbers, computed from the first
digits that fit in 64 bits and one multiplication or division by a power of ten. Arrays and objects
nest at most 127 deep.

## Main definitions

* `Json.draftOf`: the draft of a text, and the error of what follows the value, if anything does.
* `Json.parse`: the value of a text. `Json.locate`: line and column of a break.
-/

namespace DoubleEntry

namespace Json

/-- The blanks between the parts of a JSON text. -/
def isGap (c : Char) : Bool := c == ' ' || c == '\n' || c == '\t' || c == '\r'

/-- The text from its first character that is no blank. -/
def skipGaps (cs : List Char) : List Char := cs.dropWhile isGap

/-- The value of a hexadecimal digit. -/
def hexValue? (c : Char) : Option Nat :=
  if '0' ≤ c ∧ c ≤ '9' then some (c.toNat - 48)
  else if 'a' ≤ c ∧ c ≤ 'f' then some (c.toNat - 87)
  else if 'A' ≤ c ∧ c ≤ 'F' then some (c.toNat - 55)
  else none

/-- Length of a text in bytes. -/
def bytes (cs : List Char) : Nat := cs.foldr (fun c n => c.utf8Size + n) 0

/-- A break in front of these characters. -/
def breakAt (e : SyntaxError) (cs : List Char) : Break := ⟨e, bytes cs⟩

/-- A break at the first of these characters, which is looked at but not taken. -/
def breakOn (e : SyntaxError) (cs : List Char) : Break := ⟨e, bytes cs - 1⟩

/-- A draft that breaks off, and nothing to read on. -/
def cut (b : Break) : Draft × Option (List Char) := (.broken b, none)

/-- The number of four hexadecimal digits. -/
def hexFour (cs : List Char) : Except Break (Nat × List Char) :=
  if bytes (cs.take 4) < 4 then .error ⟨.eofInString, 0⟩
  else
    match (cs.take 4).mapM hexValue? with
    | some [a, b, c, d] => .ok (((a * 16 + b) * 16 + c) * 16 + d, cs.drop 4)
    | _ => .error ⟨.invalidEscape, bytes cs - 4⟩

/-- The character of a `\u` escape, of two of them for a character beyond 16 bits. -/
def unicodeEscape (cs : List Char) : Except Break (Char × List Char) := do
  let (n, rest) ← hexFour cs
  if 0xdc00 ≤ n ∧ n ≤ 0xdfff then throw (breakAt .loneSurrogate rest)
  if n < 0xd800 ∨ 0xdbff < n then return (Char.ofNat n, rest)
  match rest with
  | [] => throw ⟨.eofInString, 0⟩
  | ['\\'] => throw ⟨.eofInString, 0⟩
  | '\\' :: 'u' :: rest => do
    let (m, rest) ← hexFour rest
    if m < 0xdc00 ∨ 0xdfff < m then throw (breakAt .loneSurrogate rest)
    return (Char.ofNat (0x10000 + (n - 0xd800) * 0x400 + (m - 0xdc00)), rest)
  | '\\' :: rest => throw (breakOn .unfinishedEscape rest)
  | rest => throw (breakOn .unfinishedEscape rest)

/-- The character of an escape after its backslash. -/
def escape (cs : List Char) : Except Break (Char × List Char) :=
  match cs with
  | [] => .error ⟨.eofInString, 0⟩
  | '"' :: rest => .ok ('"', rest)
  | '\\' :: rest => .ok ('\\', rest)
  | '/' :: rest => .ok ('/', rest)
  | 'b' :: rest => .ok ('\x08', rest)
  | 'f' :: rest => .ok ('\x0c', rest)
  | 'n' :: rest => .ok ('\n', rest)
  | 'r' :: rest => .ok ('\r', rest)
  | 't' :: rest => .ok ('\t', rest)
  | 'u' :: rest => unicodeEscape rest
  | _ => .error (breakOn .invalidEscape cs)

/-- The characters of a string up to its closing quote. The fuel bounds the characters. -/
def stringBody : (fuel : Nat) → List Char → List Char → Except Break (String × List Char)
  | 0, _, _ => .error ⟨.eofInString, 0⟩
  | _ + 1, _, [] => .error ⟨.eofInString, 0⟩
  | fuel + 1, acc, c :: cs =>
    if c = '"' then .ok (String.ofList acc.reverse, cs)
    else if c = '\\' then
      match escape cs with
      | .ok (d, rest) => stringBody fuel (d :: acc) rest
      | .error b => .error b
    else if c.toNat < 32 then .error (breakAt .controlCharacter cs)
    else stringBody fuel (c :: acc) cs

/-- A string after its opening quote. -/
def string (cs : List Char) : Except Break (String × List Char) :=
  stringBody (cs.length + 1) [] cs

/-- The value of an ASCII digit. -/
def digit? (c : Char) : Option Nat := if '0' ≤ c ∧ c ≤ '9' then some (c.toNat - 48) else none

/-- Reads digits as long as the number fits in 64 bits: the number, how many digits it took, and
the text after them. -/
def significant : Nat → Nat → List Char → Nat × Nat × List Char
  | n, count, [] => (n, count, [])
  | n, count, c :: cs =>
    match digit? c with
    | some d => if n * 10 + d < twoPow 64 then significant (n * 10 + d) (count + 1) cs
                else (n, count, c :: cs)
    | none => (n, count, c :: cs)

/-- The text after its leading digits, and how many there were. -/
def skipDigits (cs : List Char) : Nat × List Char :=
  ((cs.takeWhile fun c => (digit? c).isSome).length, cs.dropWhile fun c => (digit? c).isSome)

/-- The power of ten as a floating point number. -/
def powerOfTen (e : Nat) : Float := Float.ofScientific 1 false e

/-- Divides by powers of ten in steps of 308 at most. -/
def divideByPower : (fuel : Nat) → Float → Nat → Float
  | 0, x, _ => x
  | fuel + 1, x, e =>
    if e ≤ 308 then x / powerOfTen e
    else if x == 0 then x
    else divideByPower fuel (x / powerOfTen 308) (e - 308)

/-- The number `n * 10 ^ e` in floating point, `none` if it is too large. -/
def floatOfParts (negative : Bool) (n : Nat) (e : Int) : Option Float :=
  let x := (UInt64.ofNat n).toFloat
  let signed := fun y : Float => if negative then -y else y
  if e < 0 then some (signed (divideByPower 8 x (-e).toNat))
  else if e ≤ 308 then
    let y := x * powerOfTen e.toNat
    if y.isInf then none else some (signed y)
  else if x == 0 then some (signed x)
  else none

/-- The draft of a floating point number, and the text after it. -/
def floatDraft (negative : Bool) (n : Nat) (e : Int) (rest : List Char) :
    Draft × Option (List Char) :=
  match floatOfParts negative n e with
  | some x => (.num (.float x), some rest)
  | none => (.hugeNumber (bytes rest), some rest)

/-- The exponent after `e` or `E`: its sign and its digits. -/
def exponentPart (negative : Bool) (n : Nat) (e : Int) (cs : List Char) :
    Draft × Option (List Char) :=
  let (down, cs) := match cs with
    | '-' :: rest => (true, rest)
    | '+' :: rest => (false, rest)
    | _ => (false, cs)
  let (count, rest) := skipDigits cs
  if cs.isEmpty then cut ⟨.eofInValue, 0⟩
  else if count = 0 then cut (breakOn .invalidNumber cs)
  else
    let exponent := (cs.take count).foldl (fun k c => k * 10 + (digit? c).getD 0) 0
    if exponent < twoPow 31 then
      floatDraft negative n (if down then e - exponent else e + exponent) rest
    else if n ≠ 0 ∧ !down then (.hugeNumber (bytes rest), some rest)
    else (.num (.float (if negative then -0.0 else 0.0)), some rest)

/-- What may follow the digits of a floating point number: an exponent. -/
def exponentOrEnd (negative : Bool) (n : Nat) (e : Int) (cs : List Char) :
    Draft × Option (List Char) :=
  match cs with
  | 'e' :: rest => exponentPart negative n e rest
  | 'E' :: rest => exponentPart negative n e rest
  | _ => floatDraft negative n e cs

/-- The digits after the point; the digits that do not fit are passed over. -/
def fractionPart (negative : Bool) (n : Nat) (e : Int) (cs : List Char) :
    Draft × Option (List Char) :=
  let (m, count, rest) := significant n 0 cs
  let (passed, rest) := skipDigits rest
  if count = 0 ∧ passed = 0 then
    cut (if rest.isEmpty then ⟨.eofInValue, 0⟩ else breakOn .invalidNumber rest)
  else exponentOrEnd negative m (e - count) rest

/-- What follows the integer digits: the number of those that did not fit is in the exponent. -/
def afterInteger (negative : Bool) (n : Nat) (e : Int) (long : Bool) (cs : List Char) :
    Draft × Option (List Char) :=
  match cs with
  | '.' :: rest => fractionPart negative n e rest
  | 'e' :: rest => exponentPart negative n e rest
  | 'E' :: rest => exponentPart negative n e rest
  | _ =>
    if long then floatDraft negative n e cs
    else if !negative then (.num (.int n), some cs)
    else if n = 0 ∨ twoPow 63 < n then floatDraft true n 0 cs
    else (.num (.int (-(n : Int))), some cs)

/-- A number after its minus sign, if it has one. -/
def number (negative : Bool) (cs : List Char) : Draft × Option (List Char) :=
  match cs with
  | [] => cut ⟨.eofInValue, 0⟩
  | '0' :: rest =>
    match rest with
    | c :: _ => if (digit? c).isSome then cut (breakOn .invalidNumber rest)
                else afterInteger negative 0 0 false rest
    | [] => afterInteger negative 0 0 false rest
  | c :: _ =>
    if (digit? c).isSome then
      let (n, _, rest) := significant 0 0 cs
      let (passed, rest) := skipDigits rest
      afterInteger negative n passed (passed != 0) rest
    else cut (breakOn .invalidNumber cs)

/-- A word that must follow its first letter. -/
def word (draft : Draft) : (letters : List Char) → List Char → Draft × Option (List Char)
  | [], cs => (draft, some cs)
  | _ :: _, [] => cut ⟨.eofInValue, 0⟩
  | w :: ws, c :: cs => if c = w then word draft ws cs else cut (breakOn .expectedIdent (c :: cs))

mutual

/-- A value. The fuel bounds the characters still to be read. -/
def value : (fuel depth : Nat) → List Char → Draft × Option (List Char)
  | 0, _, _ => cut ⟨.tooDeep, 0⟩
  | fuel + 1, depth, cs =>
    match skipGaps cs with
    | [] => cut ⟨.eofInValue, 0⟩
    | 'n' :: rest => word .null ['u', 'l', 'l'] rest
    | 't' :: rest => word (.bool true) ['r', 'u', 'e'] rest
    | 'f' :: rest => word (.bool false) ['a', 'l', 's', 'e'] rest
    | '-' :: rest => number true rest
    | '"' :: rest =>
      match string rest with
      | .ok (s, rest) => (.str s, some rest)
      | .error b => cut b
    | '[' :: rest =>
      if depth ≤ 1 then cut ⟨.tooDeep, bytes rest⟩ else listItems fuel (depth - 1) true [] rest
    | '\x7b' :: rest =>
      if depth ≤ 1 then cut ⟨.tooDeep, bytes rest⟩ else objectFields fuel (depth - 1) true [] rest
    | c :: rest =>
      if (digit? c).isSome then number false (c :: rest)
      else cut (breakOn .expectedValue (c :: rest))

/-- The items of an array after those read so far, in reverse. -/
def listItems : (fuel depth : Nat) → (first : Bool) → List Draft → List Char →
    Draft × Option (List Char)
  | 0, _, _, acc, _ => (.arr acc.reverse (.broken ⟨.tooDeep, 0⟩), none)
  | fuel + 1, depth, first, acc, cs =>
    let stop := fun b => (Draft.arr acc.reverse (.broken b), none)
    let item := fun cs =>
      match value fuel depth cs with
      | (d, some rest) => listItems fuel depth false (d :: acc) rest
      | (d, none) => (.arr (d :: acc).reverse .closed, none)
    match skipGaps cs with
    | [] => stop ⟨.eofInList, 0⟩
    | ']' :: rest => (.arr acc.reverse .closed, some rest)
    | c :: rest =>
      if first then item (c :: rest)
      else if c = ',' then
        match skipGaps rest with
        | [] => stop ⟨.eofInValue, 0⟩
        | ']' :: rest => stop (breakAt .trailingComma rest)
        | rest => item rest
      else stop (breakOn .expectedListEnd (c :: rest))

/-- The fields of an object after those read so far, in reverse. -/
def objectFields : (fuel depth : Nat) → (first : Bool) → List (String × Draft) → List Char →
    Draft × Option (List Char)
  | 0, _, _, acc, _ => (.obj acc.reverse (.broken ⟨.tooDeep, 0⟩), none)
  | fuel + 1, depth, first, acc, cs =>
    let stop := fun b => (Draft.obj acc.reverse (.broken b), none)
    let entry := fun cs =>
      match string cs with
      | .error b => stop b
      | .ok (key, rest) =>
        match skipGaps rest with
        | [] => stop ⟨.eofInObject, 0⟩
        | ':' :: rest =>
          match value fuel depth rest with
          | (d, some rest) => objectFields fuel depth false ((key, d) :: acc) rest
          | (d, none) => (.obj ((key, d) :: acc).reverse .closed, none)
        | rest => stop (breakOn .expectedColon rest)
    match skipGaps cs with
    | [] => stop ⟨.eofInObject, 0⟩
    | '\x7d' :: rest => (.obj acc.reverse .closed, some rest)
    | '"' :: rest =>
      if first then entry rest else stop (breakAt .expectedObjectEnd rest)
    | ',' :: rest =>
      if first then stop (breakAt .keyNotString rest)
      else
        match skipGaps rest with
        | [] => stop ⟨.eofInValue, 0⟩
        | '"' :: rest => entry rest
        | '\x7d' :: rest => stop (breakAt .trailingComma rest)
        | rest => stop (breakOn .keyNotString rest)
    | rest =>
      stop (breakOn (if first then .keyNotString else .expectedObjectEnd) rest)

end

/-- Arrays and objects inside one another, the outermost included. -/
def maxDepth : Nat := 128

/-- The draft of a text, and the error of what stands after the value. -/
def draftOf (text : String) : Draft × Option Break :=
  let cs := text.toList
  match value (2 * cs.length + 2) maxDepth cs with
  | (d, none) => (d, none)
  | (d, some rest) =>
    let after := skipGaps rest
    (d, if after.isEmpty then none else some (breakOn .trailingCharacters after))

/-- The value of a text. -/
def parse (text : String) : Except Break Json := do
  let (d, after) := draftOf text
  let j ← d.toJson
  match after with
  | some b => throw b
  | none => return j

/-- Line and column of the place after the first `taken` bytes, counted from one and from nought. -/
def lineAndColumn : (taken line column : Nat) → List Char → Nat × Nat
  | _, line, column, [] => (line, column)
  | taken, line, column, c :: cs =>
    if taken = 0 then (line, column)
    else if c = '\n' then lineAndColumn (taken - 1) (line + 1) 0 cs
    else if taken < c.utf8Size then (line, column + taken)
    else lineAndColumn (taken - c.utf8Size) line (column + c.utf8Size) cs

/-- The wording of a break with its place in the text. -/
def locate (text : String) (b : Break) : String :=
  let (line, column) := lineAndColumn (text.utf8ByteSize - b.left) 1 0 text.toList
  b.cause.message ++ " at line " ++ toString line ++ " column " ++ toString column

end Json

end DoubleEntry
