import DoubleEntry.Decimal.Text
import DoubleEntry.Json.Basic

/-!
# Pointers into JSON values

A pointer is empty, for the whole value, or names keys and indices after slashes. In a name `~1`
stands for a slash and `~0` for a tilde.

## Main definitions

* `Json.pointer?`: the value at a pointer.
-/

namespace DoubleEntry

namespace Json

/-- The names of a pointer, each with its escapes resolved. -/
def pointerNames : List Char → List (List Char)
  | [] => [[]]
  | '/' :: cs => [] :: pointerNames cs
  | '~' :: '1' :: cs => prepend '/' (pointerNames cs)
  | '~' :: '0' :: cs => prepend '~' (pointerNames cs)
  | c :: cs => prepend c (pointerNames cs)
where
  /-- Puts a character in front of the first name. -/
  prepend (c : Char) : List (List Char) → List (List Char)
    | n :: ns => (c :: n) :: ns
    | [] => [[c]]

/-- The index that a name writes: digits without a nought in front. -/
def index? (name : List Char) : Option Nat :=
  if name.head? = some '0' ∧ name.length ≠ 1 then none else natOfDigits? name

/-- The part of a value under a name. -/
def child? (j : Json) (name : List Char) : Option Json :=
  match j with
  | .obj fields => fields.lookup (String.ofList name)
  | .arr items => (index? name).bind fun i => items[i]?
  | _ => none

/-- The value at a pointer. -/
def pointer? (j : Json) (pointer : String) : Option Json :=
  match pointer.toList with
  | [] => some j
  | '/' :: cs => (pointerNames cs).foldlM child? j
  | _ => none

/-- The keys of an object. -/
def keys? : Json → Option (List String)
  | .obj fields => some (fields.map Prod.fst)
  | _ => none

end Json

end DoubleEntry
