import Cookbook.Proofs.Identifier
import Cookbook.Proofs.Justfile.Item

/-!
# Names on lines

Whatever a line gives a name to gets a name: the kind of a line is told by
taking identifiers off its text, so nothing else is ever read as the name of a
variable, an alias or a recipe.
-/

namespace Cookbook.Justfile

variable
    {text line name written rest : List Char}

theorem isName_of_take?
    (taken : Identifier.take? text = some (name, rest)) :
    IsName (String.ofList name) := by
  rw [IsName, String.toList_ofList]
  exact (Identifier.take?_eq_some_iff.mp taken).1

theorem isName_of_definition?
    (defined : definition? text = some (name, written)) :
    IsName (String.ofList name) := by
  unfold definition? at defined
  split at defined
  · cases defined
  · rename_i taken
    split at defined
    · cases defined
    · cases defined
      exact isName_of_take? taken

theorem isName_of_nickname?
    {name target : String}
    (aliased : nickname? line = some (name, target)) :
    IsName name := by
  unfold nickname? at aliased
  split at aliased
  · cases aliased
  · rename_i defined
    rcases Option.bind_eq_some_iff.mp defined with ⟨shown, _, found⟩
    split at aliased
    · cases aliased
    · split at aliased
      · cases aliased
        exact isName_of_definition? found
      · cases aliased

theorem isName_of_assignment?
    {name : String}
    (assigned : assignment? line = some (name, written)) :
    IsName name := by
  unfold assignment? at assigned
  split at assigned
  · cases assigned
  · rename_i defined
    split at assigned
    · cases assigned
    · cases assigned
      exact isName_of_definition? defined

theorem isName_of_plainHeader?
    {name : String}
    {needs : List (List Char)}
    (headed : plainHeader? line = some (name, needs)) :
    IsName name := by
  unfold plainHeader? at headed
  split at headed
  · cases headed
  · rename_i taken
    split at headed
    · cases headed
    · cases headed
      exact isName_of_take? taken

theorem isName_of_header?
    {quiet : Bool}
    {name : String}
    {needs : List (List Char)}
    (headed : header? line = some (quiet, name, needs)) :
    IsName name := by
  unfold header? at headed
  split at headed <;>
    · rcases Option.map_eq_some_iff.mp headed with ⟨_, plain, same⟩
      cases same
      exact isName_of_plainHeader? plain

/-- The name that a line gives to something, if it does. -/
def Line.named? : Line → Option String
  | .nickname name _ => some name
  | .definition name _ => some name
  | .header _ name _ => some name
  | _ => none

/-- What a line gives a name to gets a name. -/
theorem isName_of_read
    {kind : Line}
    {name : String}
    (read : Line.read text = kind)
    (gives : kind.named? = some name) :
    IsName name := by
  rw [← read] at gives
  unfold Line.read at gives
  split at gives
  · cases gives
  · split at gives
    · cases gives
    · split at gives
      · cases gives
      · unfold Line.ofStatement at gives
        split at gives
        · cases gives
        · split at gives
          · rename_i aliased
            cases gives
            exact isName_of_nickname? aliased
          · split at gives
            · rename_i assigned
              cases gives
              exact isName_of_assignment? assigned
            · split at gives
              · rename_i headed
                cases gives
                exact isName_of_header? headed
              · cases gives

/-! ## First fields -/

theorem fields_ne_nil
    {letter : Char}
    (inside : letter ∈ text)
    (solid : Text.isBlank letter = false) :
    Text.fields text ≠ [] := by
  induction text with
  | nil => cases inside
  | cons first others ih =>
    by_cases blank : Text.isBlank first = true
    · rw [Text.fields_blank first others blank]
      rcases List.mem_cons.mp inside with rfl | behind
      · rw [solid] at blank
        cases blank
      · exact ih behind
    · unfold Text.fields
      rw [if_neg blank]
      split
      · exact List.cons_ne_nil _ _
      · split
        · exact List.cons_ne_nil _ _
        · split
          · exact List.cons_ne_nil _ _
          · exact List.cons_ne_nil _ _

/-- A line of which something is left has a first field. -/
theorem fields_trimRight_ne_nil
    (present : Text.trimRight line ≠ []) :
    Text.fields (Text.trimRight line) ≠ [] := by
  apply fields_ne_nil (List.getLast_mem present)
  exact Bool.eq_false_iff.mpr (List.rdropWhile_last_not Text.isBlank line present)

end Cookbook.Justfile
