/-!
# Programs with a state

A program works on a state and may fail on the way.  A failure keeps the state
as it is at that moment: what was done before is not undone.
-/

namespace Cookbook

/-- A program that works on a state and returns a value or fails. -/
abbrev Program (Problem State Value : Type) :=
  EStateM Problem State Value

namespace Program

variable
    {Problem State Value Next : Type}
    {first : Program Problem State Value}
    {next : Value → Program Problem State Next}
    {state later : State}
    {value : Value}
    {problem : Problem}

/-- What a program returns, or why it failed. -/
def result (program : Program Problem State Value) (state : State) : Except Problem Value :=
  match program state with
  | .ok value _ => .ok value
  | .error problem _ => .error problem

/-- The state that a program leaves behind, whether it returns or fails. -/
def left (program : Program Problem State Value) (state : State) : State :=
  match program state with
  | .ok _ later => later
  | .error _ later => later

/-- Goes through a program; if it fails, something else is done before the failure goes on. -/
def guarded (program : Program Problem State Value)
    (cleanUp : Problem → Program Problem State Unit) : Program Problem State Value := do
  try
    program
  catch problem =>
    cleanUp problem
    throw problem

/-- Goes through a program; if it fails, the failure goes on under another name. -/
def relabelled (rename : Problem → Problem) (program : Program Problem State Value) :
    Program Problem State Value := do
  try
    program
  catch problem =>
    throw (rename problem)

/-- Returns a value, or fails as it says. -/
def yield : Except Problem Value → Program Problem State Value
  | .ok value => pure value
  | .error problem => throw problem

theorem bind_of_ok
    (ran : first state = .ok value later) :
    (first >>= next) state = next value later := by
  show EStateM.bind first next state = _
  rw [EStateM.bind, ran]

theorem bind_of_error
    (ran : first state = .error problem later) :
    (first >>= next) state = .error problem later := by
  show EStateM.bind first next state = _
  rw [EStateM.bind, ran]

theorem tryCatch_eq
    (program : Program Problem State Value)
    (handler : Problem → Program Problem State Value)
    (state : State) :
    EStateM.tryCatch program handler state =
      match program state with
      | .error problem later => handler problem later
      | .ok value later => .ok value later := by
  delta EStateM.tryCatch
  dsimp only
  cases program state with
  | ok value later => rfl
  | error problem later => rfl

theorem guarded_of_ok
    {cleanUp : Problem → Program Problem State Unit}
    (ran : first state = .ok value later) :
    guarded first cleanUp state = .ok value later := by
  show EStateM.tryCatch first _ state = _
  rw [tryCatch_eq, ran]

theorem guarded_of_error
    {cleanUp : Problem → Program Problem State Unit}
    (ran : first state = .error problem later) :
    guarded first cleanUp state = (do cleanUp problem; throw problem) later := by
  show EStateM.tryCatch first _ state = _
  rw [tryCatch_eq, ran]

/-- What is done after a failure may itself fail, but the whole fails in any case. -/
theorem exists_guarded_of_error
    (cleanUp : Problem → Program Problem State Unit)
    (ran : first state = .error problem later) :
    ∃ last, guarded first cleanUp state = .error last (left (cleanUp problem) later) := by
  rw [guarded_of_error ran, left]
  cases cleaned : cleanUp problem later with
  | ok nothing final => exact ⟨problem, bind_of_ok cleaned⟩
  | error other final => exact ⟨other, bind_of_error cleaned⟩

theorem relabelled_of_ok
    {rename : Problem → Problem}
    (ran : first state = .ok value later) :
    relabelled rename first state = .ok value later := by
  show EStateM.tryCatch first _ state = _
  rw [tryCatch_eq, ran]

theorem relabelled_of_error
    {rename : Problem → Problem}
    (ran : first state = .error problem later) :
    relabelled rename first state = .error (rename problem) later := by
  show EStateM.tryCatch first _ state = _
  rw [tryCatch_eq, ran]
  rfl

end Program

end Cookbook
