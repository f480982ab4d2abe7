/-!
# Given texts

In messages and on the command line an empty text counts as none at all.
-/

namespace Cookbook.Text

/-- A text that is present and not empty. -/
def given (text : Option String) : Option String :=
  text.filter (!·.isEmpty)

@[simp]
theorem given_none :
    given none = none :=
  rfl

end Cookbook.Text
