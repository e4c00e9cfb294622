/-!
# JSON values

A `Json` value keeps the fields of an object in the order they were given. An object read from a
text has its keys sorted and each key once (`Json.canonical`); one that a program builds has them
in the order in which it lists them.

## Main definitions

* `Number`: an integer of 64 bits, or a binary64 number.
* `Json`: the values.
* `Json.field?`: the value of a key.
* `Json.canonical`: keys sorted and unique at every level, the last value of a key kept.
-/

namespace DoubleEntry

/-- A number: an integer in the range of 64-bit words, or a floating point number. -/
inductive Number where
  | int (n : Int)
  | float (x : Float)

/-- A JSON value. -/
inductive Json where
  | null
  | bool (b : Bool)
  | num (n : Number)
  | str (s : String)
  | arr (items : List Json)
  | obj (fields : List (String × Json))

namespace Json

instance : Inhabited Json := ⟨null⟩

/-- An integer value. -/
def int (n : Int) : Json := .num (.int n)

/-- A natural number as a value. -/
def nat (n : Nat) : Json := .num (.int n)

/-- The value of an option: `null` for none. -/
def option {α : Type} (f : α → Json) : Option α → Json
  | none => .null
  | some a => f a

/-- One field, or no field where there is nothing to write. -/
def optField {α : Type} (key : String) (f : α → Json) : Option α → List (String × Json)
  | none => []
  | some a => [(key, f a)]

/-- The value under a key of an object. -/
def field? (key : String) : Json → Option Json
  | .obj fields => fields.lookup key
  | _ => none

/-- The value under a key of an object, `null` if there is none. -/
def field (key : String) (j : Json) : Json := (j.field? key).getD .null

/-- The text of a string value. -/
def text? : Json → Option String
  | .str s => some s
  | _ => none

/-- The items of an array. -/
def items? : Json → Option (List Json)
  | .arr items => some items
  | _ => none

/-- The integer of an integral number. -/
def int? : Json → Option Int
  | .num (.int n) => some n
  | _ => none

/-- The truth value of a boolean. -/
def bool? : Json → Option Bool
  | .bool b => some b
  | _ => none

/-- Puts a field into a sorted list of fields; an equal key gets the new value. -/
def insertField (key : String) (value : Json) : List (String × Json) → List (String × Json)
  | [] => [(key, value)]
  | (k, v) :: rest =>
    if key < k then (key, value) :: (k, v) :: rest
    else if key = k then (key, value) :: rest
    else (k, v) :: insertField key value rest

/-- Fields sorted by key, the last value of each key kept. -/
def sortFields (fields : List (String × Json)) : List (String × Json) :=
  fields.foldl (fun acc f => insertField f.1 f.2 acc) []

/-- An object of these fields, its keys sorted. -/
def record (fields : List (String × Json)) : Json := .obj (sortFields fields)

mutual

/-- Keys sorted and unique at every level. -/
def canonical : Json → Json
  | .arr items => .arr (canonicalItems items)
  | .obj fields => .obj (sortFields (canonicalFields fields))
  | .null => .null
  | .bool b => .bool b
  | .num n => .num n
  | .str s => .str s

/-- The items of an array, each canonical. -/
def canonicalItems : List Json → List Json
  | [] => []
  | j :: js => canonical j :: canonicalItems js

/-- The fields of an object, each value canonical. -/
def canonicalFields : List (String × Json) → List (String × Json)
  | [] => []
  | (k, j) :: rest => (k, canonical j) :: canonicalFields rest

end

end Json

end DoubleEntry
