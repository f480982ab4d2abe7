import Cookbook.Execution
import Cookbook.Text.Quoted
import Cookbook.Text.Uppercase

/-!
# The terminal

What the program writes, as text on the standard output and on the standard
error output.  Reports of progress go to the first, commands and problems to
the second.  In debug mode more is written, and a stop is shown by its trace.
-/

namespace Cookbook

/-- Text for the two output streams. -/
structure Output where
  out : String
  err : String
  deriving DecidableEq

namespace Output

def none : Output :=
  ⟨"", ""⟩

def append (first second : Output) : Output :=
  ⟨first.out ++ second.out, first.err ++ second.err⟩

instance : Append Output :=
  ⟨append⟩

def lines (texts : List String) : Output :=
  ⟨String.join (texts.map (· ++ "\n")), ""⟩

def errorLines (texts : List String) : Output :=
  ⟨"", String.join (texts.map (· ++ "\n"))⟩

def concat (outputs : List Output) : Output :=
  outputs.foldr append none

end Output

/-- How output is written: whether debugging is on, and what the trace of a stop looks like. -/
structure Terminal where
  debug : Bool
  trace : Stop → String

namespace Terminal

def opening (source target : String) (plan : List String) : Output :=
  .lines
    [ "\nRUN STARTED", "Recipes: " ++ source, "Target: " ++ target,
      "Plan: " ++ " -> ".intercalate plan, "" ]

def banner (recipe : String) : Output :=
  .lines ["\nRECIPE: " ++ recipe]

/-- A command behind its directory in parentheses. -/
def commandLine (command : List String) : Option String → String
  | none => Word.join command
  | some directory => "(" ++ directory ++ ") " ++ Word.join command

/-- The line that shows a command before it runs; an empty directory is not shown. -/
def echo (words : List String) (directory : Option String) : Output :=
  .errorLines [commandLine words (Text.given directory)]

/-- The notice that a recipe failed. -/
def failureNotice (terminal : Terminal) (recipe reason : String) (exitCode : Option Int) :
    Output :=
  .errorLines
    (("RECIPE FAILED: " ++ recipe) ::
      exitCode.toList.map (fun code => "Exit code: " ++ toString code) ++
      (if terminal.debug then ["Error details: " ++ reason] else []))

/-- A text filled up with spaces to a number of characters. -/
def padded (width : Nat) (text : String) : String :=
  text ++ String.ofList (List.replicate (width - text.length) ' ')

/-- The line that lists a recipe. -/
def recipeLine (name : String) (aliases : List String) (doc : Option String) : String :=
  let label :=
    if aliases.isEmpty then name
    else name ++ " [" ++ ", ".intercalate aliases ++ "]"
  match Text.given doc with
  | some doc => "    " ++ padded 24 label ++ " # " ++ doc
  | none => "    " ++ label

/-- The list of recipes, given by name, aliases and documentation. -/
def listing (rows : List (String × List String × Option String)) : Output :=
  .lines
    ("Available recipes:" ::
      rows.map fun row => recipeLine row.1 row.2.1 row.2.2)

/-- The lines of a plan that starts with the given number. -/
def planLines (number : Nat) : List (String × List String) → List String
  | [] => []
  | (recipe, commands) :: rest =>
    (toString number ++ ". " ++ recipe) :: commands.map ("     " ++ ·) ++
      planLines (number + 1) rest

/-- A plan, with the commands of each recipe. -/
def planListing (steps : List (String × List String)) : Output :=
  .lines (planLines 1 steps)

/-- The line between the parts of a report. -/
def rule : String :=
  String.ofList (List.replicate 40 '=')

def statusWord (status : String) : String :=
  if status = "ok" then "SUCCESS" else Text.uppercase status

def summary (rows : List (String × String)) : Output :=
  .lines
    (("\n" ++ rule) :: "RESULTS" :: rule ::
      rows.map fun row => "  " ++ row.1 ++ ": " ++ statusWord row.2)

/-- An error with its details and a suggestion. -/
def problem (title message : String) (details : List String) (suggestion : Option String) :
    Output :=
  .errorLines
    (("\nERROR: " ++ title) :: message ::
      details.map ("  " ++ ·) ++
      (Text.given suggestion).toList.map ("\n" ++ ·))

def notice (text : String) : Output :=
  .lines [text]

/-- A line that is only written in debug mode. -/
def detail (terminal : Terminal) (text : String) : Output :=
  if terminal.debug then .errorLines ["[DEBUG] " ++ text] else .none

def stopNotice (terminal : Terminal) (stop : Stop) : Output :=
  if terminal.debug then ⟨"", terminal.trace stop⟩
  else .errorLines ["Error: " ++ stop.message]

/-- What is written about an event of a run. -/
def event (terminal : Terminal) : Event → Output
  | .planned recipes => terminal.detail ("plan: " ++ Text.quotedList recipes)
  | .entered recipe => banner recipe
  | .shown words directory => echo words directory
  | .recorded _ _ => .none
  | .started _ => .none
  | .stopped recipe stop =>
    terminal.failureNotice recipe stop.message (stop.exitCode?.map Int.ofNat)

/-- What is written about the events of a run, in order. -/
def events (terminal : Terminal) (happened : List Event) : Output :=
  .concat (happened.map terminal.event)

end Terminal

end Cookbook
