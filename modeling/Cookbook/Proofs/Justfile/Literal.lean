import Cookbook.Proofs.Justfile.Item

/-!
# Reading back written values

A value that is written between double quotes, with its line ends, tabs, quotes
and backslashes escaped, is read back as it was.
-/

namespace Cookbook.Justfile

theorem decodeEscapes_escapedCharacter
    (letter : Char)
    (rest : List Char) :
    decodeEscapes (escapedCharacter letter ++ rest) = (letter :: ·) <$> decodeEscapes rest := by
  unfold escapedCharacter
  split
  · rfl
  · rfl
  · rfl
  · rfl
  · rfl
  · rename_i backslash
    show decodeEscapes (letter :: rest) = _
    rw [decodeEscapes]
    · intro same
      exact absurd same backslash
    · intro next later same
      exact absurd same backslash

theorem decodeEscapes_flatMap
    (value : List Char) :
    decodeEscapes (value.flatMap escapedCharacter) = .ok value := by
  induction value with
  | nil => rfl
  | cons letter value ih =>
    rw [List.flatMap_cons, decodeEscapes_escapedCharacter, ih]
    rfl

theorem between?_quoted
    (mark : Char)
    (text : List Char) :
    between? mark (mark :: (text ++ [mark])) = some text := by
  simp [between?]

/-- A written value is read back. -/
theorem decodeValue_quotedValue
    (value : String) :
    decodeValue (quotedValue value) = .ok value.toList := by
  have single : between? '\'' (quotedValue value) = none := rfl
  have double : between? '"' (quotedValue value) =
      some (value.toList.flatMap escapedCharacter) :=
    between?_quoted '"' _
  rw [decodeValue, single, double]
  exact decodeEscapes_flatMap value.toList

end Cookbook.Justfile
