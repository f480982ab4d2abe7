import Cookbook.Proofs.Text.Trim

/-!
# Phrases

Texts are put together with one space between each two of them, and empty texts
leave nothing.  What comes out does not depend on how the texts are grouped, and
trimming it is trimming each of them.
-/

namespace Cookbook.Text

variable
    {front back : List Char}
    {pieces : List (List Char)}

/-- Two texts with a space between them, unless one of them is empty. -/
def beside (front back : List Char) : List Char :=
  if front = [] then back
  else if back = [] then front
  else front ++ ' ' :: back

/-- The texts that are not empty, with a space between each two of them. -/
def phrase (pieces : List (List Char)) : List Char :=
  pieces.foldr beside []

theorem beside_nil
    (text : List Char) :
    beside text [] = text := by
  unfold beside
  split
  · rename_i empty
    exact empty.symm
  · rfl

theorem beside_assoc
    (first second third : List Char) :
    beside (beside first second) third = beside first (beside second third) := by
  by_cases noFirst : first = []
  · simp [beside, noFirst]
  · by_cases noSecond : second = []
    · simp [beside, noFirst, noSecond]
    · by_cases noThird : third = []
      · simp [beside, noFirst, noSecond, noThird]
      · simp [beside, noFirst, noSecond, noThird]

theorem phrase_cons
    (piece : List Char)
    (pieces : List (List Char)) :
    phrase (piece :: pieces) = beside piece (phrase pieces) :=
  rfl

theorem phrase_append
    (pieces further : List (List Char)) :
    phrase (pieces ++ further) = beside (phrase pieces) (phrase further) := by
  induction pieces with
  | nil => rfl
  | cons piece rest ih => rw [List.cons_append, phrase_cons, phrase_cons, ih, beside_assoc]

/-- Texts that are not empty are joined by single spaces. -/
theorem phrase_eq_intercalate
    (present : ∀ piece ∈ pieces, piece ≠ []) :
    phrase pieces = [' '].intercalate pieces := by
  induction pieces with
  | nil => rfl
  | cons piece rest ih =>
    rcases List.forall_mem_cons.mp present with ⟨some, others⟩
    rw [phrase_cons, ih others]
    cases rest with
    | nil => rw [List.intercalate_singleton, List.intercalate_nil, beside_nil]
    | cons next rest =>
      have filled : [' '].intercalate (next :: rest) ≠ [] := by
        cases rest with
        | nil =>
          rw [List.intercalate_singleton]
          exact others next List.mem_cons_self
        | cons => simp [List.intercalate_cons_cons]
      rw [List.intercalate_cons_cons, beside, if_neg some, if_neg filled]
      simp

/-- Of two texts that are put together only the blanks at the outer ends are trimmed. -/
theorem trim_append_space
    (ended : trimRight front = front)
    (started : trimLeft back = back) :
    trim (front ++ ' ' :: back) = beside (trim front) (trim back) := by
  have core : trim (front ++ ' ' :: back) = trim (trim front ++ ' ' :: trim back) := by
    rcases exists_blank_append_trimLeft front with ⟨margin, leading, splitFront⟩
    rcases exists_trimRight_append_blank back with ⟨rest, trailing, splitBack⟩
    have left : trimLeft front = trim front := by
      rw [← trimLeft_trimRight, ended]
    have right : trimRight back = trim back := by
      rw [trim, started]
    rw [left] at splitFront
    rw [right] at splitBack
    have whole : front ++ ' ' :: back =
        margin ++ ((trim front ++ ' ' :: trim back) ++ rest) := by
      conv_lhs => rw [splitFront, splitBack]
      simp
    rw [whole, trim_append_of_blank leading, trim_append trailing]
  have space : Blank [' '] := List.forall_mem_singleton.mpr rfl
  rw [core, beside]
  split
  · rename_i none
    rw [none]
    show trim ([' '] ++ trim back) = _
    rw [trim_append_of_blank space, trim_trim]
  · rename_i some
    split
    · rename_i none
      rw [none, trim_append space, trim_trim]
    · rename_i present
      have firm : Firm (trim front ++ [' '] ++ trim back) :=
        (firm_trim some).around (firm_trim present)
      rw [List.append_assoc] at firm
      exact firm.trim

end Cookbook.Text
