import DoubleEntry.Http.Uri

/-!
# Words of a command line

A word that begins with two hyphens names an option, a lone pair of hyphens ends the options, and
all other words are plain. The value of an option stands in the word after it, which then does not
begin with a hyphen unless it is nothing else, or after an equals sign in the same word.

## Main definitions

* `Word`, `Word.read`: the words of a command line.
* `Given`: what a command was given. `Given.ofWords?`: that of its words.
-/

namespace DoubleEntry.CommandLine

/-- A word of a command line, an option with its value. -/
inductive Word where
  | option (name value : String)
  | flag (name : String)
  | plain (s : String)
  /-- The end of the options. -/
  | mark
deriving DecidableEq

namespace Word

/-- The options that have no value. -/
def flags : List String := ["with-counterparty"]

/-- The word can be the value of the option before it. -/
def isValue (s : String) : Bool :=
  match s.toList with
  | '-' :: _ :: _ => false
  | _ => true

/-- Takes the words of a command line apart; `none` if one is no option, or an option lacks its
value or has one too many. -/
def read : List String → Option (List Word)
  | [] => some []
  | s :: rest =>
    match s.toList with
    | ['-', '-'] => some (.mark :: rest.map .plain)
    | '-' :: '-' :: cs =>
      let (name, value) := Uri.cutAt '=' cs
      let (name, value) := (String.ofList name, String.ofList value)
      if flags.contains name then
        if cs.contains '=' then none else (.flag name :: ·) <$> read rest
      else if cs.contains '=' then (.option name value :: ·) <$> read rest
      else match rest with
        | value :: rest => if isValue value then (.option name value :: ·) <$> read rest else none
        | [] => none
    | '-' :: _ :: _ => none
    | _ => (.plain s :: ·) <$> read rest

end Word

/-- What a command was given: values of options, flags, and plain words. -/
structure Given where
  options : List (String × String)
  flags : List String
  plain : List String
deriving DecidableEq

namespace Given

/-- Nothing. -/
def empty : Given := ⟨[], [], []⟩

/-- Adds a word, if the command knows its option and has not been given it before; an option of
`many` may be given again. -/
def add? (once many flags : List String) (w : Word) (g : Given) : Option Given :=
  match w with
  | .option name value =>
    if many.contains name || (once.contains name && (g.options.lookup name).isNone) then
      some { g with options := g.options ++ [(name, value)] }
    else none
  | .flag name =>
    if flags.contains name && !g.flags.contains name then some { g with flags := name :: g.flags }
    else none
  | .plain s => some { g with plain := g.plain ++ [s] }
  | .mark => some g

/-- What the words of a command give, if it knows all of its options. -/
def ofWords? (once many flags : List String) (ws : List Word) : Option Given :=
  ws.foldlM (fun g w => g.add? once many flags w) empty

/-- The value of an option. -/
def value? (g : Given) (name : String) : Option String := g.options.lookup name

/-- The values of an option that may be given again. -/
def values (g : Given) (name : String) : List String :=
  (g.options.filter fun o => o.1 = name).map Prod.snd

end Given

end DoubleEntry.CommandLine
