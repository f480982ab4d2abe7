import Cookbook.Proofs.Except
import Cookbook.Session

/-!
# Lines that show commands

A plan and a trace show a command on a line, behind its directory if it has
one.  A plan takes the directory from its template by itself, but what it shows
is made of the words and the place that a run fills in.
-/

namespace Cookbook

/-- What stands in front of a shown command: its directory in parentheses, if it has one. -/
def Terminal.note : Option String → String
  | none => ""
  | some directory => "(" ++ directory ++ ") "

theorem Terminal.commandLine_eq
    (command : List String)
    (directory : Option String) :
    Terminal.commandLine command directory = Terminal.note directory ++ Word.join command := by
  cases directory with
  | none => exact String.empty_append.symm
  | some directory => rfl

/-- A line of a plan is made of what is filled in for a step: its words, then its place. -/
theorem Session.planLine_eq
    (bindings : Bindings)
    (recipe : String)
    (step : Step) :
    Session.planLine bindings recipe step =
      match step.words bindings (some recipe) with
      | .error failure => .error failure
      | .ok command =>
        match step.place bindings (some recipe) with
        | .error failure => .error failure
        | .ok directory => .ok (Terminal.note directory ++ Word.join command) := by
  rw [Session.planLine, Step.place]
  cases step.words bindings (some recipe) with
  | error failure => rfl
  | ok command =>
    cases step.directory with
    | none => exact congrArg Except.ok String.empty_append.symm
    | some template =>
      cases expanded : bindings.expand template (some recipe) with
      | error failure =>
        simp only [expanded]
        rfl
      | ok directory =>
        simp only [expanded]
        rfl

end Cookbook
