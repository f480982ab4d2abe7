import Cookbook.Failure

/-!
# Values of variables

The value of a variable is written between two single quotes, where every
character stands for itself, or between two double quotes, where a backslash
starts one of five escapes.
-/

namespace Cookbook.Justfile

/-- The character that an escape stands for. -/
def unescape? : Char → Option Char
  | 'n' => some '\n'
  | 't' => some '\t'
  | 'r' => some '\r'
  | '"' => some '"'
  | '\\' => some '\\'
  | _ => none

/-- Reads the text between double quotes. -/
def decodeEscapes : List Char → Except LineProblem (List Char)
  | [] => .ok []
  | ['\\'] => .error (.unknownEscape "")
  | '\\' :: letter :: rest =>
    match unescape? letter with
    | none => .error (.unknownEscape (String.ofList [letter]))
    | some meant => (meant :: ·) <$> decodeEscapes rest
  | letter :: rest => (letter :: ·) <$> decodeEscapes rest

/-- The text between two equal marks at the ends of a written value. -/
def between? (mark : Char) (written : List Char) : Option (List Char) :=
  match written with
  | [] => none
  | first :: rest =>
    if first == mark && rest.getLast? == some mark then some rest.dropLast else none

/-- The value that is written. -/
def decodeValue (written : List Char) : Except LineProblem (List Char) :=
  match between? '\'' written with
  | some value => .ok value
  | none =>
    match between? '"' written with
    | some escaped => decodeEscapes escaped
    | none => .error (.notQuoted (String.ofList written))

end Cookbook.Justfile
