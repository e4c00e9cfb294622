/-!
# Texts as bytes

The bytes of a text are those of its characters in UTF-8. Bytes that are no text are read either not
at all or with a mark in the place of each piece that is none: a byte that begins no character, or
the longest beginning of one that is broken off.

## Main definitions

* `Utf8.decode?`: the text of bytes. `Utf8.decodeLossy`: the same with marks.
-/

namespace DoubleEntry

namespace Utf8

/-- What the first byte of a character says: how many bytes follow, the bounds of the first of them,
and its own bits. -/
def lead? (b : Nat) : Option (Nat × Nat × Nat × Nat) :=
  if b < 0x80 then some (0, 0x80, 0xbf, b)
  else if 0xc2 ≤ b ∧ b ≤ 0xdf then some (1, 0x80, 0xbf, b - 0xc0)
  else if b = 0xe0 then some (2, 0xa0, 0xbf, b - 0xe0)
  else if b = 0xed then some (2, 0x80, 0x9f, b - 0xe0)
  else if 0xe1 ≤ b ∧ b ≤ 0xef then some (2, 0x80, 0xbf, b - 0xe0)
  else if b = 0xf0 then some (3, 0x90, 0xbf, b - 0xf0)
  else if 0xf1 ≤ b ∧ b ≤ 0xf3 then some (3, 0x80, 0xbf, b - 0xf0)
  else if b = 0xf4 then some (3, 0x80, 0x8f, b - 0xf0)
  else none

/-- Reads so many bytes that follow a first one: the character if they are all there, and the bytes
after those that were read. -/
def tail : (count low high acc : Nat) → List UInt8 → Option Char × List UInt8
  | 0, _, _, acc, rest => (some (Char.ofNat acc), rest)
  | _ + 1, _, _, _, [] => (none, [])
  | n + 1, low, high, acc, b :: rest =>
    if low ≤ b.toNat ∧ b.toNat ≤ high then tail n 0x80 0xbf (acc * 64 + (b.toNat - 0x80)) rest
    else (none, b :: rest)

/-- The characters of bytes, with gaps where there are none; `fuel` bounds their number. -/
def pieces : (fuel : Nat) → List UInt8 → List (Option Char)
  | 0, _ => []
  | _ + 1, [] => []
  | fuel + 1, b :: rest =>
    match lead? b.toNat with
    | none => none :: pieces fuel rest
    | some (n, low, high, bits) =>
      let (c, rest) := tail n low high bits rest
      c :: pieces fuel rest

/-- The text of bytes, if they are one. -/
def decode? (bytes : List UInt8) : Option String :=
  ((pieces bytes.length bytes).mapM id).map String.ofList

/-- The text of bytes, with marks where they are none. -/
def decodeLossy (bytes : List UInt8) : String :=
  String.ofList ((pieces bytes.length bytes).map fun c => c.getD '\ufffd')

end Utf8

end DoubleEntry
