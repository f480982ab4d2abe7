import Cookbook.Identifier
import Cookbook.Proofs.Word.Join

/-!
# Identifiers at the front of a text

An identifier consists of characters that need no quotes, so it holds no blank,
brace or sign.  The identifier at the front of a text is the one behind which
the text ends or goes on with a character that is no part of identifiers.
-/

namespace Cookbook.Identifier

variable
    {letter : Char}
    {text name rest : List Char}

/-- A text that no identifier in front of it goes on in. -/
def Stops (text : List Char) : Prop :=
  ∀ letter ∈ text.head?, isPart letter = false

theorem Stops.nil :
    Stops [] := by
  intro letter present
  cases present

theorem stops_cons
    (other : isPart letter = false) :
    Stops (letter :: rest) := by
  intro first present
  cases present
  exact other

theorem isPart_of_isStart
    (start : isStart letter = true) :
    isPart letter = true := by
  simp only [isStart, isPart, Char.isAlphanum, Bool.or_eq_true] at start ⊢
  tauto

theorem isSafe_of_isPart
    (part : isPart letter = true) :
    Word.isSafe letter = true := by
  simp only [isPart, Bool.or_eq_true, beq_iff_eq] at part
  rcases part with (alphanumeric | rfl) | rfl
  · rw [Word.isSafe, alphanumeric, Bool.true_or]
  · decide
  · decide

theorem isBlank_of_isPart
    (part : isPart letter = true) :
    Text.isBlank letter = false :=
  Word.isBlank_of_isSafe (isSafe_of_isPart part)

theorem isPart_of_isBlank
    (blank : Text.isBlank letter = true) :
    isPart letter = false := by
  by_contra part
  rw [isBlank_of_isPart (Bool.not_eq_false _ ▸ part)] at blank
  cases blank

theorem isIdentifier_cons :
    isIdentifier (letter :: rest) = true ↔
      isStart letter = true ∧ ∀ other ∈ rest, isPart other = true := by
  rw [isIdentifier, Bool.and_eq_true, List.all_eq_true]

/-- Every character of an identifier may stand in one. -/
theorem isPart_of_mem
    (named : isIdentifier name = true)
    (inside : letter ∈ name) :
    isPart letter = true := by
  cases name with
  | nil => cases inside
  | cons first rest =>
    rcases isIdentifier_cons.mp named with ⟨start, parts⟩
    rcases List.mem_cons.mp inside with rfl | later
    · exact isPart_of_isStart start
    · exact parts letter later

theorem ne_nil_of_isIdentifier
    (named : isIdentifier name = true) :
    name ≠ [] := by
  rintro rfl
  cases named

theorem stops_dropWhile
    (text : List Char) :
    Stops (text.dropWhile isPart) := by
  intro letter present
  have ends := List.head?_dropWhile_not isPart text
  rw [Option.mem_def.mp present] at ends
  exact ends

theorem Stops.takeWhile_dropWhile
    (stops : Stops rest) :
    rest.takeWhile isPart = [] ∧ rest.dropWhile isPart = rest := by
  cases rest with
  | nil => exact ⟨rfl, rfl⟩
  | cons letter rest =>
    have other : ¬isPart letter = true := Bool.eq_false_iff.mp (stops letter rfl)
    exact ⟨List.takeWhile_cons_of_neg other, List.dropWhile_cons_of_neg other⟩

/-- What is taken is an identifier, and the text behind it does not go on in it. -/
theorem take?_eq_some_iff :
    take? text = some (name, rest) ↔
      isIdentifier name = true ∧ text = name ++ rest ∧ Stops rest := by
  constructor
  · intro taken
    have whole := append_of_take? taken
    cases text with
    | nil => cases taken
    | cons letter tail =>
      rw [take?] at taken
      split at taken
      · rename_i start
        cases taken
        refine ⟨?_, whole.symm, stops_dropWhile tail⟩
        exact isIdentifier_cons.mpr ⟨start, fun _ => List.mem_takeWhile_imp⟩
      · cases taken
  · rintro ⟨named, rfl, stops⟩
    cases name with
    | nil => cases named
    | cons letter parts =>
      rcases isIdentifier_cons.mp named with ⟨start, inside⟩
      rcases stops.takeWhile_dropWhile with ⟨none, all⟩
      rw [List.cons_append, take?, if_pos start, List.takeWhile_append_of_pos inside,
        List.dropWhile_append_of_pos inside, none, all, List.append_nil]

end Cookbook.Identifier
