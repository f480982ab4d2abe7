import Cookbook.Proofs.Identifier
import Cookbook.Proofs.Template.Escape

/-!
# Written placeholders

A placeholder is written as an identifier between braces, with any blanks
around it.  It is found wherever one is written, and nowhere else; opening
braces that begin none are refused, unless they are doubled.
-/

namespace Cookbook.Template

open Text (Blank)

variable
    {column : Nat}
    {name : String}
    {text front rest slot : List Char}

/-- The two characters that close a placeholder. -/
def closingBraces : List Char :=
  ['}', '}']

/-- A placeholder as it is written: a name between braces, with any blanks around it. -/
def Slot (name : String) (text : List Char) : Prop :=
  ∃ before after, Blank before ∧ Blank after ∧
    text = openingBraces ++ (before ++ name.toList ++ after ++ closingBraces)

theorem closing?_eq_some_iff :
    closing? text = some rest ↔ text = closingBraces ++ rest := by
  constructor
  · intro closed
    unfold closing? at closed
    split at closed
    · cases closed
      rfl
    · cases closed
  · rintro rfl
    rfl

theorem isBlank_of_mem_head?_isIdentifier
    (named : Identifier.isIdentifier text = true) :
    ∃ letter ∈ (text ++ rest).head?, Text.isBlank letter = false := by
  cases text with
  | nil => cases named
  | cons letter parts =>
    exact ⟨letter, rfl,
      Identifier.isBlank_of_isPart (Identifier.isPart_of_mem named List.mem_cons_self)⟩

theorem stops_append_closingBraces
    (blank : Blank front) :
    Identifier.Stops (front ++ closingBraces ++ rest) := by
  cases front with
  | nil => exact Identifier.stops_cons rfl
  | cons letter front =>
    exact Identifier.stops_cons (Identifier.isPart_of_isBlank (blank letter List.mem_cons_self))

/-- A placeholder is found behind its opening braces exactly if one is written there. -/
theorem placeholder?_eq_some_iff :
    placeholder? text = some (name, rest) ↔
      Identifier.isIdentifier name.toList = true ∧
        ∃ slot, Slot name slot ∧ openingBraces ++ text = slot ++ rest := by
  constructor
  · intro found
    unfold placeholder? at found
    split at found
    · cases found
    · rename_i letters afterName taken
      split at found
      · cases found
      · rename_i afterBraces closed
        cases found
        rcases Identifier.take?_eq_some_iff.mp taken with ⟨named, whole, _⟩
        rcases Text.exists_blank_append_trimLeft text with ⟨before, blankBefore, split⟩
        rcases Text.exists_blank_append_trimLeft afterName with ⟨after, blankAfter, splitAfter⟩
        rw [closing?_eq_some_iff.mp closed] at splitAfter
        rw [whole, splitAfter] at split
        rw [String.toList_ofList]
        refine ⟨named, _, ⟨before, after, blankBefore, blankAfter, rfl⟩, ?_⟩
        rw [split, String.toList_ofList]
        simp only [List.append_assoc]
  · rintro ⟨named, _, ⟨before, after, blankBefore, blankAfter, rfl⟩, whole⟩
    have same : text = before ++ (name.toList ++ (after ++ closingBraces ++ rest)) := by
      simpa [List.append_assoc] using whole
    have taken : Identifier.take? (Text.trimLeft text) =
        some (name.toList, after ++ closingBraces ++ rest) := by
      rw [same, Text.trimLeft_append blankBefore,
        Text.trimLeft_of_first (isBlank_of_mem_head?_isIdentifier named)]
      exact Identifier.take?_eq_some_iff.mpr ⟨named, rfl, stops_append_closingBraces blankAfter⟩
    have closed : closing? (Text.trimLeft (after ++ closingBraces ++ rest)) = some rest := by
      rw [List.append_assoc, Text.trimLeft_append blankAfter]
      rfl
    unfold placeholder?
    simp only [taken, closed, String.ofList_toList]

/-- A placeholder does not begin with a third brace. -/
theorem not_openingBraces_prefix_of_placeholder?
    (found : placeholder? text = some (name, rest)) :
    ¬openingBraces <+: text := by
  rcases placeholder?_eq_some_iff.mp found with
    ⟨named, _, ⟨before, after, blank, _, rfl⟩, whole⟩
  have same : text = before ++ (name.toList ++ (after ++ closingBraces ++ rest)) := by
    simpa [List.append_assoc] using whole
  intro braces
  have head : text.head? = some '{' := by
    rcases braces with ⟨behind, rfl⟩
    rfl
  rw [same] at head
  cases before with
  | nil =>
    rcases List.exists_cons_of_ne_nil (Identifier.ne_nil_of_isIdentifier named) with
      ⟨first, others, spelled⟩
    rw [List.nil_append, spelled] at head
    have part := Identifier.isPart_of_mem named (spelled ▸ List.mem_cons_self)
    rw [Option.some.inj head] at part
    cases part
  | cons first others =>
    have inFront := blank first List.mem_cons_self
    rw [Option.some.inj head] at inFront
    cases inFront

theorem partsFrom_of_placeholder?
    (found : placeholder? text = some (name, rest)) :
    partsFrom column (openingBraces ++ text) =
      (Part.placeholder name :: ·) <$>
        partsFrom (column + 2 + (text.length - rest.length)) rest := by
  have single := not_openingBraces_prefix_of_placeholder? found
  show partsFrom column ('{' :: '{' :: text) = _
  rw [partsFrom]
  · split
    · rename_i absent
      rw [found] at absent
      cases absent
    · rename_i other later again
      rw [found] at again
      cases again
      rfl
  · rintro later rfl
    exact single ⟨later, rfl⟩

theorem partsFrom_of_malformed
    (single : ¬openingBraces <+: text)
    (absent : placeholder? text = none) :
    partsFrom column (openingBraces ++ text) = .error column := by
  show partsFrom column ('{' :: '{' :: text) = _
  rw [partsFrom]
  · split
    · rfl
    · rename_i found
      rw [absent] at found
      cases found
  · rintro later rfl
    exact single ⟨later, rfl⟩

theorem length_of_slot
    (found : placeholder? text = some (name, rest))
    (whole : openingBraces ++ text = slot ++ rest) :
    2 + (text.length - rest.length) = slot.length := by
  have shorter := length_lt_of_placeholder? found
  have lengths := congrArg List.length whole
  simp only [List.length_append, openingBraces, List.length_cons, List.length_nil] at lengths
  omega

theorem partsFrom_slot_append
    (named : Identifier.isIdentifier name.toList = true)
    (slotted : Slot name slot) :
    partsFrom column (slot ++ rest) =
      (Part.placeholder name :: ·) <$> partsFrom (column + slot.length) rest := by
  have ⟨before, after, _, _, spelled⟩ := slotted
  have whole : openingBraces ++ (before ++ name.toList ++ after ++ closingBraces ++ rest) =
      slot ++ rest := by
    rw [spelled, List.append_assoc openingBraces]
  have found := placeholder?_eq_some_iff.mpr ⟨named, slot, slotted, whole⟩
  rw [← whole, partsFrom_of_placeholder? found, Nat.add_assoc, length_of_slot found whole]

end Cookbook.Template
