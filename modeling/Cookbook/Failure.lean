import Cookbook.Text.Given
import Cookbook.Word.Join
import Cookbook.Word.Split

/-!
# Failures

Everything that can be wrong with recipes, and everything that can go wrong
while they run, is a value that names its cause.  The wording and the exit
status are functions of the cause.
-/

namespace Cookbook

/-- What is wrong with the template of a command. -/
inductive TemplateProblem
  | malformedPlaceholder (column : Nat)
  | shellOperator (operator : String) (column : Nat)
  | emptyLink
  | chainInCommand
  | unfinished (cause : Word.Unfinished)
  | emptyCommand
  | stated (message : String)
  deriving DecidableEq

/-- The wording of a template problem. -/
def TemplateProblem.message : TemplateProblem → String
  | .malformedPlaceholder column =>
    "unterminated or malformed placeholder at column " ++ toString column
  | .shellOperator operator column =>
    "unsupported shell operator '" ++ operator ++ "' at column " ++ toString column ++
      " (quote it to pass it literally)"
  | .emptyLink => "empty command in '&&' chain"
  | .chainInCommand => "'&&' chain in a single command; build it with split_chain()"
  | .unfinished cause => cause.message
  | .emptyCommand => "empty command"
  | .stated message => message

/-- What is wrong with a line of a justfile. -/
inductive LineProblem
  | strayIndentation
  | unsupported (line : String)
  | variableTaken (name : String)
  | unknownEscape (letter : String)
  | notQuoted (value : String)
  | needSyntax (need recipe : String)
  | unknownAliasTarget (nickname target : String)
  | danglingContinuation
  | command (problem : TemplateProblem)
  | stated (message : String)
  deriving DecidableEq

/-- The wording of a line problem. -/
def LineProblem.message : LineProblem → String
  | .strayIndentation => "unexpected indentation outside a recipe"
  | .unsupported line => "unsupported justfile syntax: " ++ line
  | .variableTaken name => "variable '" ++ name ++ "' is defined more than once"
  | .unknownEscape letter => "unknown escape sequence '\\" ++ letter ++ "'"
  | .notQuoted value => "expected a quoted string, got: " ++ value
  | .needSyntax need recipe =>
    "unsupported dependency syntax '" ++ need ++ "' in recipe '" ++ recipe ++ "'"
  | .unknownAliasTarget nickname target =>
    "alias '" ++ nickname ++ "' refers to unknown recipe '" ++ target ++ "'"
  | .danglingContinuation => "line continuation at end of recipe"
  | .command problem => problem.message
  | .stated message => message

/-- What is wrong with a recipe book as a whole. -/
inductive BookProblem
  | noRecipes
  | notABook
  | stated (message : String)
  deriving DecidableEq

/-- The wording of a book problem. -/
def BookProblem.message : BookProblem → String
  | .noRecipes => "defines no recipes"
  | .notABook =>
    "recipe file must return/define a RecipeBook. " ++
      "Define recipes() -> RecipeBook or RECIPES = book(...)."
  | .stated message => message

/-- The failures of recipe books and of the commands they run. -/
inductive Failure
  | unknownRecipe (name : String) (known : List String) (neededBy : Option String)
  | nameTaken (name holder : String)
  | variableTaken (name : String)
  | unusableBook (source : String) (problem : BookProblem)
  | cyclicNeeds (cycle : List String)
  | undefinedVariable (name : String) (template recipe : Option String)
  | badTemplate (template : String) (problem : TemplateProblem) (recipe : Option String)
  | badJustfile (path : String) (line : Int) (problem : LineProblem)
  | commandFailed
      (command : List String) (status : Int) (recipe reason : Option String)
  deriving DecidableEq

namespace Failure

/-- The wording of a failure. -/
def message : Failure → String
  | .unknownRecipe name known neededBy =>
    let subject :=
      match Text.given neededBy with
      | some recipe =>
        "Recipe '" ++ recipe ++ "' depends on unknown recipe '" ++ name ++ "'"
      | none => "Unknown recipe '" ++ name ++ "'"
    if known.isEmpty then subject
    else subject ++ ". Known recipes: " ++ ", ".intercalate known
  | .nameTaken name holder =>
    if name == holder then "Recipe '" ++ name ++ "' is defined more than once"
    else "Name '" ++ name ++ "' is already taken by recipe '" ++ holder ++ "'"
  | .variableTaken name => "Variable '" ++ name ++ "' is defined more than once"
  | .unusableBook source problem => source ++ ": " ++ problem.message
  | .cyclicNeeds cycle => "Recipe dependency cycle: " ++ " -> ".intercalate cycle
  | .undefinedVariable name template recipe =>
    "\n".intercalate
      (("Variable '" ++ name ++ "' is not defined") ::
        (Text.given recipe).toList.map ("recipe=" ++ ·) ++
        template.toList.map ("template=" ++ ·))
  | .badTemplate template problem recipe =>
    let place :=
      match Text.given recipe with
      | some recipe => " in recipe '" ++ recipe ++ "'"
      | none => ""
    "Bad command template" ++ place ++ ": " ++ problem.message ++ "\ntemplate=" ++ template
  | .badJustfile path line problem =>
    path ++ ":" ++ toString line ++ ": " ++ problem.message
  | .commandFailed command status recipe reason =>
    let owner :=
      match Text.given recipe with
      | some recipe => "[" ++ recipe ++ "] "
      | none => ""
    "\n".intercalate
      ((owner ++ "command failed (exit=" ++ toString status ++ "): " ++ Word.join command) ::
        (Text.given reason).toList.map ("reason=" ++ ·))

/-- A failed command passes its status on if that is an exit status of a failed process. -/
def exitCode : Failure → Nat
  | .commandFailed _ status _ _ =>
    if 0 < status ∧ status < 256 then status.toNat else 1
  | _ => 2

end Failure

end Cookbook
