import Cookbook.Bindings
import Cookbook.Chain
import Cookbook.Template

/-!
# Substituting variables

The variables of a book turn the line of a step into the words of a command
and its directory into a text.  Operators are looked for in the template, so
the values of variables may hold any of them.
-/

namespace Cookbook

/-- The text of a template.  Nothing is substituted unless every placeholder is well formed. -/
def Bindings.expand (bindings : Bindings) (template : String) (recipe : Option String) :
    Except Failure String :=
  match Template.parts template with
  | .error column => .error (.badTemplate template (.malformedPlaceholder column) recipe)
  | .ok parts =>
    match Template.fill bindings.value? parts with
    | .error name => .error (.undefinedVariable name (some template) recipe)
    | .ok text => .ok (String.ofList text)

namespace Step

/-- The words of the command that a step runs. -/
def words (step : Step) (bindings : Bindings) (recipe : Option String) :
    Except Failure (List String) :=
  match Chain.segments step.line with
  | .error problem => .error (.badTemplate step.line problem recipe)
  | .ok segments =>
    if 1 < segments.length then
      .error (.badTemplate step.line .chainInCommand recipe)
    else
      match bindings.expand step.line recipe with
      | .error failure => .error failure
      | .ok line =>
        match Word.split line with
        | .error cause => .error (.badTemplate step.line (.unfinished cause) recipe)
        | .ok [] => .error (.badTemplate step.line .emptyCommand recipe)
        | .ok words => .ok words

/-- The directory of a step, if it has one. -/
def place (step : Step) (bindings : Bindings) (recipe : Option String) :
    Except Failure (Option String) :=
  match step.directory with
  | none => .ok none
  | some directory => some <$> bindings.expand directory recipe

end Step

end Cookbook
