import DoubleEntry.Text.Unprintable

/-!
# Quoted texts in messages

A text that a message quotes stands between double quotes. The quote and the backslash get a
backslash, four control characters have letters, and what cannot be shown is given by its number.

## Main definitions

* `quote`: the quoted form.
-/

namespace DoubleEntry

/-- A character as it is shown inside quotes. -/
def quoteChar (c : Char) : List Char :=
  if c = '"' then ['\\', '"']
  else if c = '\\' then ['\\', '\\']
  else if c = '\n' then ['\\', 'n']
  else if c = '\r' then ['\\', 'r']
  else if c = '\t' then ['\\', 't']
  else if c.toNat = 0 then ['\\', '0']
  else if isUnprintable c then ['\\', 'u', '\x7b'] ++ Nat.toDigits 16 c.toNat ++ ['\x7d']
  else [c]

/-- The text between double quotes. -/
def quote (s : String) : String :=
  String.ofList ('"' :: s.toList.flatMap quoteChar ++ ['"'])

end DoubleEntry
