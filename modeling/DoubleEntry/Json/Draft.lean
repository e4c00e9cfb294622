import DoubleEntry.Json.Basic

/-!
# Drafts of JSON values

A `Draft` is what a text says as far as it is JSON: the values read in full, the fields of objects
in the order of the text with repetitions, and the place where the text breaks off. A reader that
looks for a value of some shape meets its parts in the order of the text, so a part of the wrong
shape is reported before a later break.

## Main definitions

* `SyntaxError`: why a text is not JSON, with `SyntaxError.message`. `Break`: that, and where.
* `Draft`: the drafts. `Draft.fault?`: the first break in one.
* `Draft.toJson`: the value, if there is no break. `Json.toDraft`: the draft of a value.
-/

namespace DoubleEntry

/-- Why a text is not JSON. -/
inductive SyntaxError where
  | eofInValue
  | eofInList
  | eofInObject
  | eofInString
  | expectedColon
  | expectedListEnd
  | expectedObjectEnd
  | expectedIdent
  | expectedValue
  | invalidEscape
  | invalidNumber
  | numberOutOfRange
  | controlCharacter
  | keyNotString
  | loneSurrogate
  | trailingComma
  | trailingCharacters
  | unfinishedEscape
  | tooDeep
deriving DecidableEq

/-- The wording of a syntax error. -/
def SyntaxError.message : SyntaxError → String
  | eofInValue => "EOF while parsing a value"
  | eofInList => "EOF while parsing a list"
  | eofInObject => "EOF while parsing an object"
  | eofInString => "EOF while parsing a string"
  | expectedColon => "expected `:`"
  | expectedListEnd => "expected `,` or `]`"
  | expectedObjectEnd => "expected `,` or `\x7d`"
  | expectedIdent => "expected ident"
  | expectedValue => "expected value"
  | invalidEscape => "invalid escape"
  | invalidNumber => "invalid number"
  | numberOutOfRange => "number out of range"
  | controlCharacter => "control character (\\u0000-\\u001F) found while parsing a string"
  | keyNotString => "key must be a string"
  | loneSurrogate => "lone leading surrogate in hex escape"
  | trailingComma => "trailing comma"
  | trailingCharacters => "trailing characters"
  | unfinishedEscape => "unexpected end of hex escape"
  | tooDeep => "recursion limit exceeded"

/-- A break in a text: its cause, and how many bytes of the text were still to be read. -/
structure Break where
  cause : SyntaxError
  left : Nat
deriving DecidableEq

/-- How the items of an array or the fields of an object end. -/
inductive Ending where
  /-- With the closing bracket. -/
  | closed
  /-- With a break in the text. -/
  | broken (b : Break)
deriving DecidableEq

/-- What a text says as far as it is JSON. -/
inductive Draft where
  | null
  | bool (b : Bool)
  | num (n : Number)
  | str (s : String)
  | arr (items : List Draft) (ending : Ending)
  | obj (fields : List (String × Draft)) (ending : Ending)
  /-- A number too large for any reader of numbers, and the bytes after it. -/
  | hugeNumber (left : Nat)
  /-- The text breaks off before a value is complete. -/
  | broken (b : Break)

instance : Inhabited Draft := ⟨.null⟩

/-- The break that ends a sequence, if one does. -/
def Ending.fault? : Ending → Option Break
  | .broken b => some b
  | .closed => none

/-- Where a draft comes from: errors differ where a text would have to be read on. -/
inductive Source where
  | text
  | value
  /-- A form, whose fields are all texts. -/
  | form
deriving DecidableEq

/-- The error of a reader that wants no further item where the sequence ends so. -/
def Ending.faultAtEnd? : Ending → Option Break
  | .broken ⟨.expectedListEnd, left⟩ => some ⟨.trailingCharacters, left⟩
  | .broken ⟨.eofInValue, left⟩ => some ⟨.trailingCharacters, left⟩
  | .broken b => some b
  | .closed => none

namespace Draft

mutual

/-- The first break in a draft that is passed over. -/
def fault? : Draft → Option Break
  | .broken b => some b
  | .arr items ending => (itemsFault? items).or ending.fault?
  | .obj fields ending => (fieldsFault? fields).or ending.fault?
  | _ => none

/-- The first break in a list of drafts. -/
def itemsFault? : List Draft → Option Break
  | [] => none
  | d :: ds => (fault? d).or (itemsFault? ds)

/-- The first break in the fields of an object. -/
def fieldsFault? : List (String × Draft) → Option Break
  | [] => none
  | (_, d) :: rest => (fault? d).or (fieldsFault? rest)

end

/-- A value that must not be followed by a break. -/
def ended {α : Type} (ending : Ending) (a : α) : Except Break α :=
  match ending.fault? with
  | some b => .error b
  | none => .ok a

mutual

/-- The value of a draft without a break, its keys sorted and unique. -/
def toJson : Draft → Except Break Json
  | .null => .ok .null
  | .bool b => .ok (.bool b)
  | .num n => .ok (.num n)
  | .str s => .ok (.str s)
  | .hugeNumber left => .error ⟨.numberOutOfRange, left⟩
  | .broken b => .error b
  | .arr items ending => do ended ending (.arr (← itemsToJson items))
  | .obj fields ending => do ended ending (.obj (Json.sortFields (← fieldsToJson fields)))

/-- The values of a list of drafts. -/
def itemsToJson : List Draft → Except Break (List Json)
  | [] => .ok []
  | d :: ds => do
    let j ← toJson d
    let js ← itemsToJson ds
    return j :: js

/-- The values of the fields of an object. -/
def fieldsToJson : List (String × Draft) → Except Break (List (String × Json))
  | [] => .ok []
  | (k, d) :: rest => do
    let j ← toJson d
    let js ← fieldsToJson rest
    return (k, j) :: js

end

end Draft

namespace Json

mutual

/-- The draft of a value, which has no break. -/
def toDraft : Json → Draft
  | .null => .null
  | .bool b => .bool b
  | .num n => .num n
  | .str s => .str s
  | .arr items => .arr (itemsToDraft items) .closed
  | .obj fields => .obj (fieldsToDraft fields) .closed

/-- The drafts of a list of values. -/
def itemsToDraft : List Json → List Draft
  | [] => []
  | j :: js => toDraft j :: itemsToDraft js

/-- The drafts of the fields of an object. -/
def fieldsToDraft : List (String × Json) → List (String × Draft)
  | [] => []
  | (k, j) :: rest => (k, toDraft j) :: fieldsToDraft rest

end

end Json

end DoubleEntry
