import DoubleEntry.Json.Codec
import DoubleEntry.Json.Printer

/-!
# Identifiers

A `Uuid` is a number of 128 bits. Its text has 32 hexadecimal digits in lower case in five groups.
It is read in either case, with or without the hyphens, and with the hyphens also in braces or after
`urn:uuid:` in either case. The order of identifiers is that of their numbers, which is the order of
their texts.

## Main definitions

* `Uuid`: the identifiers. `Uuid.toText`, `Uuid.ofText?`: writing and reading.
* `AccountId`, `PaymentId`, `JournalId`, `EventId`: what they identify.
-/

namespace DoubleEntry

/-- An identifier of 128 bits. -/
structure Uuid where
  bits : Nat
  bits_lt : bits < twoPow 128
deriving DecidableEq

namespace Uuid

/-- The identifier of a number, modulo `2 ^ 128`. -/
def ofNat (n : Nat) : Uuid := ⟨n % twoPow 128, Nat.mod_lt _ (by decide)⟩

instance : Inhabited Uuid := ⟨ofNat 0⟩

instance : LT Uuid := ⟨fun a b => a.bits < b.bits⟩

instance (a b : Uuid) : Decidable (a < b) := inferInstanceAs (Decidable (a.bits < b.bits))

/-- The identifier of random bits; six of its bits say that it is random. -/
def ofRandom (bits : Nat) : Uuid :=
  let a := bits / twoPow 80 % twoPow 48
  let b := bits / twoPow 64 % twoPow 12
  let c := bits % twoPow 62
  ofNat ((((a * 16 + 4) * twoPow 12 + b) * 4 + 2) * twoPow 62 + c)

/-- The lower hexadecimal digits of a number, at this width. -/
def hexDigits : (width : Nat) → Nat → List Char
  | 0, _ => []
  | width + 1, n => hexDigits width (n / 16) ++ [Json.hexDigit (n % 16)]

/-- The lengths of the groups of a text. -/
def groups : List Nat := [8, 4, 4, 4, 12]

/-- Digits cut into groups with hyphens between them. -/
def hyphenate : List Nat → List Char → List Char
  | [], _ => []
  | [_], cs => cs
  | n :: ns, cs => cs.take n ++ '-' :: hyphenate ns (cs.drop n)

/-- The text of an identifier. -/
def toChars (u : Uuid) : List Char := hyphenate groups (hexDigits 32 u.bits)

/-- The text of an identifier. -/
def toText (u : Uuid) : String := String.ofList u.toChars

instance : ToString Uuid := ⟨toText⟩

/-- The digits of a text with hyphens in their places. -/
def unhyphenate : List Nat → List Char → Option (List Char)
  | [], cs => if cs.isEmpty then some [] else none
  | [n], cs => if cs.length = n then some cs else none
  | n :: ns, cs =>
    match cs.drop n with
    | '-' :: rest => (unhyphenate ns rest).map (cs.take n ++ ·)
    | _ => none

/-- The number of hexadecimal digits of either case. -/
def ofDigits? (cs : List Char) : Option Uuid :=
  if cs.length = 32 then
    (cs.foldlM (fun n c => (Json.hexValue? c).map (n * 16 + ·)) 0).map ofNat
  else none

/-- The text inside the wrapping of a text with hyphens. -/
def unwrap (cs : List Char) : List Char :=
  match cs with
  | '\x7b' :: rest => if rest.getLast? = some '\x7d' then rest.dropLast else cs
  | _ => if (cs.take 9).map Char.toLower = "urn:uuid:".toList then cs.drop 9 else cs

/-- Reads an identifier. -/
def ofChars? (cs : List Char) : Option Uuid :=
  if cs.length = 32 then ofDigits? cs else (unhyphenate groups (unwrap cs)).bind ofDigits?

/-- Reads an identifier. -/
def ofText? (s : String) : Option Uuid := ofChars? s.toList

/-- Why a text is no identifier. -/
inductive Unreadable where
  /-- A character that no identifier has, and the number of its first byte. -/
  | character (c : Char) (position : Nat)
  | length (found : Nat)
  | groupCount (found : Nat)
  | groupLength (group found : Nat)
deriving DecidableEq

/-- The wording for a text that is no identifier. -/
def Unreadable.message : Unreadable → String
  | character c position =>
    "invalid character: expected an optional prefix of `urn:uuid:` followed by [0-9a-fA-F-], " ++
      "found `"
      ++ String.singleton c ++ "` at " ++ toString position
  | length found => "invalid length: expected length 32 for simple format, found " ++ toString found
  | groupCount found => "invalid group count: expected 5, found " ++ toString found
  | groupLength group found =>
    "invalid group length in group " ++ toString group ++ ": expected " ++
      toString (groups.getD group 0) ++ ", found " ++ toString found

/-- The first character that is neither a hexadecimal digit nor a hyphen, with its place. -/
def strange? : (position : Nat) → List Char → Option (Char × Nat)
  | _, [] => none
  | p, c :: cs =>
    if c = '-' ∨ (Json.hexValue? c).isSome then strange? (p + c.utf8Size) cs else some (c, p)

/-- The lengths of the runs between hyphens. -/
def runLengths : List Char → List Nat
  | [] => [0]
  | c :: cs =>
    match runLengths cs with
    | n :: ns => if c = '-' then 0 :: n :: ns else (n + 1) :: ns
    | [] => [1]

/-- The first group whose length is wrong; the last one is blamed for all that follows it. -/
def wrongGroup (total : Nat) : (group : Nat) → List Nat → List Nat → Unreadable
  | g, n :: m :: ns, l :: ls =>
    if l = n then wrongGroup total (g + 1) (m :: ns) ls else .groupLength g l
  | g, _, _ => .groupLength g (total - 24)

/-- Why this text is no identifier. -/
def fault (cs : List Char) : Unreadable :=
  let body := unwrap cs
  let offset := if body.length = cs.length then 0 else if cs.head? = some '\x7b' then 1 else 9
  match strange? (offset + 1) body with
  | some (c, p) => .character c p
  | none =>
    let lengths := runLengths body
    if lengths.length = 1 ∧ body.length = cs.length then .length cs.length
    else if lengths.length ≠ 5 then .groupCount lengths.length
    else wrongGroup cs.length 0 groups lengths

/-- Reads an identifier, with the reason if it cannot be read. -/
def read (s : String) : Except Unreadable Uuid :=
  match ofText? s with
  | some u => .ok u
  | none => .error (fault s.toList)

/-- Reads an identifier from its text. -/
def decoder : Decoder Uuid :=
  (Decoder.textAs "a formatted UUID string").andThen fun s =>
    (read s).mapError fun e => .other ("UUID parsing failed: " ++ e.message)

/-- The identifier as a JSON value. -/
def toJson (u : Uuid) : Json := .str u.toText

end Uuid

instance : ToJson Uuid := ⟨Uuid.toJson⟩
instance : FromJson Uuid := ⟨Uuid.decoder⟩

/-- A customer account. -/
abbrev AccountId := Uuid

/-- A payment, and the hold that it reserves. -/
abbrev PaymentId := Uuid

/-- A journal entry. -/
abbrev JournalId := Uuid

/-- An outbox event. -/
abbrev EventId := Uuid

end DoubleEntry
