import Cookbook.Failure
import Cookbook.Path
import Cookbook.Recipe
import Cookbook.Text.Blank

/-!
# Chains of commands

A command line may chain commands with a double ampersand.  Commands run
without a shell, so every other shell operator outside quotes is refused: it
would reach the program as a plain argument.  A change of directory applies to
the later commands of its own line.
-/

namespace Cookbook.Chain

/-- The characters of the shell's control and redirection operators. -/
def isOperator (letter : Char) : Bool :=
  letter == '|' || letter == ';' || letter == '<' || letter == '>' || letter == '&'

/-- An operator that a command line may not hold, and where it stands. -/
structure Refused where
  operator : List Char
  column : Nat
  deriving DecidableEq

/-- Puts characters in front of the first piece. -/
def extend (letters : List Char) : List (List Char) → List (List Char)
  | [] => [letters]
  | piece :: rest => (letters ++ piece) :: rest

/--
The pieces between the double ampersands of a text that starts at a column of
its line, inside the quotation that an earlier mark opened.  A backslash keeps
the next character from being read, except between single quotes.
-/
def piecesFrom (column : Nat) (mark : Option Char) :
    List Char → Except Refused (List (List Char))
  | [] => .ok [[]]
  | [letter] =>
    if mark.isNone && isOperator letter then
      .error ⟨[letter], column⟩
    else
      .ok [[letter]]
  | letter :: next :: rest =>
    if letter == '\\' && mark != some '\'' then
      extend [letter, next] <$> piecesFrom (column + 2) mark rest
    else
      match mark with
      | some opened =>
        extend [letter] <$>
          piecesFrom (column + 1) (if letter == opened then none else mark) (next :: rest)
      | none =>
        if letter == '\'' || letter == '"' then
          extend [letter] <$> piecesFrom (column + 1) (some letter) (next :: rest)
        else if letter == '&' && next == '&' then
          ([] :: ·) <$> piecesFrom (column + 2) none rest
        else if isOperator letter then
          .error ⟨letter :: (next :: rest).takeWhile isOperator, column⟩
        else
          extend [letter] <$> piecesFrom (column + 1) none (next :: rest)

/-- The commands of a line as they are written between its double ampersands. -/
def pieces (line : List Char) : Except Refused (List (List Char)) :=
  piecesFrom 1 none line

/-- The commands of a line, trimmed. -/
def segments (line : String) : Except TemplateProblem (List String) :=
  match pieces line.toList with
  | .ok found => .ok (found.map fun piece => String.ofList (Text.trim piece))
  | .error refused =>
    .error (.shellOperator (String.ofList refused.operator) refused.column)

/-- The directory that a command changes to, when it is a change of directory. -/
def destination? : List String → Option String
  | ["cd", target] => some target
  | _ => none

/-- The directory in force after a command. -/
def directoryAfter (directory : Option String) (words : List String) : Option String :=
  match destination? words with
  | none => directory
  | some target =>
    match directory with
    | none => some target
    | some base => some (Path.joinText base target)

/-- One step for each trimmed command, each in the directory left by those before it. -/
def stepsOfSegments (directory : Option String) (quiet : Bool) :
    List String → Except TemplateProblem (List Step)
  | [] => .ok []
  | segment :: rest =>
    if segment.isEmpty then
      .error .emptyLink
    else
      match Word.split segment with
      | .error cause => .error (.unfinished cause)
      | .ok words =>
        (⟨segment, directory, quiet⟩ :: ·) <$>
          stepsOfSegments (directoryAfter directory words) quiet rest

def steps (line : String) (directory : Option String := none) (quiet : Bool := false) :
    Except TemplateProblem (List Step) := do
  stepsOfSegments directory quiet (← segments line)

end Cookbook.Chain
