import Cookbook.Failure
import Cookbook.Identifier
import Cookbook.Text.Blank

/-!
# Lines of a justfile

Each line of a justfile is of one kind, and its kind can be told from the line
alone: blank, indented, a comment, an alias, a variable, the header of a
recipe, or something that is not supported.  Lines are read without the blanks
at their end.
-/

namespace Cookbook.Justfile

/-- The kinds of lines, with what is written on them. -/
inductive Line
  | blank
  | indented
  | comment (doc : Option String)
  | nickname (name target : String)
  | definition (name : String) (value : List Char)
  | header (quiet : Bool) (name : String) (needs : List (List Char))
  | unsupported
  deriving DecidableEq

/-- The words that start lines of kinds that are not supported. -/
def isReserved (word : List Char) : Bool :=
  ["set", "export", "import", "mod"].contains (String.ofList word)

/-- What follows the sign of a definition. -/
def afterDefinitionSign? : List Char → Option (List Char)
  | ':' :: '=' :: rest => some rest
  | _ => none

/-- What follows the colon of a header; the sign of a definition is no such colon. -/
def afterColon? : List Char → Option (List Char)
  | ':' :: '=' :: _ => none
  | ':' :: rest => some rest
  | _ => none

/-- A name in front of a definition sign, and what is defined, without blanks in front. -/
def definition? (text : List Char) : Option (List Char × List Char) :=
  match Identifier.take? text with
  | none => none
  | some (name, rest) =>
    match afterDefinitionSign? (Text.trimLeft rest) with
    | none => none
    | some value => some (name, Text.trimLeft value)

/-- The text after the word that starts an alias line. -/
def afterAliasWord? : List Char → Option (List Char)
  | 'a' :: 'l' :: 'i' :: 'a' :: 's' :: letter :: rest =>
    if Text.isBlank letter then some (Text.trimLeft rest) else none
  | _ => none

/-- An alias line: the new name and the recipe it stands for. -/
def nickname? (line : List Char) : Option (String × String) :=
  match (afterAliasWord? line).bind definition? with
  | none => none
  | some (name, value) =>
    match Identifier.take? value with
    | none => none
    | some (target, rest) =>
      if (Text.trimLeft rest).isEmpty then
        some (String.ofList name, String.ofList target)
      else
        none

/-- A variable line: the name and what is written as its value. -/
def assignment? (line : List Char) : Option (String × List Char) :=
  match definition? line with
  | none => none
  | some (name, value) =>
    if value.isEmpty then none else some (String.ofList name, value)

/-- A header without the quiet mark: the recipe's name and the fields after the colon. -/
def plainHeader? (line : List Char) : Option (String × List (List Char)) :=
  match Identifier.take? line with
  | none => none
  | some (name, rest) =>
    match afterColon? (Text.trimLeft rest) with
    | none => none
    | some needs => some (String.ofList name, Text.fields needs)

/-- A header, with whether it starts with the quiet mark. -/
def header? : List Char → Option (Bool × String × List (List Char))
  | '@' :: rest => (plainHeader? rest).map ((true, ·))
  | line => (plainHeader? line).map ((false, ·))

/-- The kind of a line that is neither blank nor indented nor a comment. -/
def Line.ofStatement (line : List Char) : Line :=
  if (Text.fields line).head?.any isReserved || line.head? == some '[' then
    .unsupported
  else
    match nickname? line with
    | some (name, target) => .nickname name target
    | none =>
      match assignment? line with
      | some (name, value) => .definition name value
      | none =>
        match header? line with
        | some (quiet, name, needs) => .header quiet name needs
        | none => .unsupported

/-- The documentation that a comment gives, if it says anything. -/
def docOfComment (text : List Char) : Option String :=
  let said := Text.trim text
  if said.isEmpty then none else some (String.ofList said)

/-- The kind of a line. -/
def Line.read : List Char → Line
  | [] => .blank
  | letter :: rest =>
    if letter == ' ' || letter == '\t' then .indented
    else if letter == '#' then .comment (docOfComment rest)
    else .ofStatement (letter :: rest)

end Cookbook.Justfile
