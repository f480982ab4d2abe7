import Cookbook.Proofs.Template.Literal
import Mathlib.Algebra.Group.Nat.Even
import Mathlib.Data.List.DropRight

/-!
# Text written so that its template is literal

A text in which every two opening braces are written twice, read as a template,
has no placeholders and expands to the text itself.  Only the text without two
opening braces in a row is written as it is.
-/

namespace Cookbook.Template

/-- A text with every two opening braces, taken from the left, written twice. -/
def escape : List Char → List Char
  | '{' :: '{' :: rest => '{' :: '{' :: '{' :: '{' :: escape rest
  | letter :: rest => letter :: escape rest
  | [] => []

example : escape ['{', '{', '{', 'a', '{'] = ['{', '{', '{', '{', '{', 'a', '{'] :=
  rfl

/-- A text escaped for use as a template. -/
def escaped (text : String) : String :=
  String.ofList (escape text.toList)

@[simp]
theorem toList_escaped
    (text : String) :
    (escaped text).toList = escape text.toList :=
  String.toList_ofList

variable
    {column : Nat}
    {letter : Char}
    {text front back rest : List Char}

/-- A letter at which no placeholder opens is written as it is. -/
theorem escape_cons
    (single : ¬openingBraces <+: letter :: rest) :
    escape (letter :: rest) = letter :: escape rest := by
  rw [escape]
  rintro later rfl rfl
  exact single ⟨later, rfl⟩

/-- The cases of a text as it is escaped: two opening braces, or a letter that opens none. -/
@[elab_as_elim]
theorem escape_induction
    {motive : List Char → Prop}
    (nil : motive [])
    (pair : ∀ rest, motive rest → motive ('{' :: '{' :: rest))
    (single : ∀ letter rest,
      ¬openingBraces <+: letter :: rest → motive rest → motive (letter :: rest))
    (text : List Char) :
    motive text := by
  induction text using escape.induct with
  | case1 rest ih => exact pair rest ih
  | case2 letter rest other ih =>
    apply single letter rest
    · rintro ⟨later, same⟩
      rcases List.cons.inj same with ⟨rfl, rfl⟩
      exact other later rfl rfl
    · exact ih
  | case3 => exact nil

theorem head?_escape :
    (escape text).head? = text.head? := by
  induction text using escape_induction with
  | nil => rfl
  | pair rest ih => rfl
  | single letter rest single ih => rw [escape_cons single, List.head?_cons, List.head?_cons]

/-- Text divides for escaping at every letter that is no brace. -/
theorem escape_append_cons
    (other : letter ≠ '{') :
    escape (front ++ letter :: back) = escape front ++ letter :: escape back := by
  have alone : ¬openingBraces <+: letter :: back := by
    simp [openingBraces_prefix_cons, other]
  induction front using escape_induction with
  | nil => exact escape_cons alone
  | pair rest ih =>
    show '{' :: '{' :: '{' :: '{' :: escape (rest ++ letter :: back) = _
    rw [ih]
    rfl
  | single first rest single ih =>
    have still : ¬openingBraces <+: first :: (rest ++ letter :: back) := by
      rw [openingBraces_prefix_cons] at single ⊢
      cases rest with
      | nil => simp [other]
      | cons next rest => exact single
    rw [List.cons_append, escape_cons still, ih, escape_cons single, List.cons_append]

theorem mem_escape :
    letter ∈ escape text ↔ letter ∈ text := by
  induction text using escape_induction with
  | nil => rfl
  | pair rest ih => simp [escape, ih]
  | single first rest single ih => simp [escape_cons single, ih]

theorem isEmpty_escape :
    (escape text).isEmpty = text.isEmpty := by
  rw [Bool.eq_iff_iff, List.isEmpty_iff, List.isEmpty_iff, ← List.head?_eq_none_iff, head?_escape,
    List.head?_eq_none_iff]

theorem all_escape
    (test : Char → Bool) :
    (escape text).all test = text.all test := by
  rw [Bool.eq_iff_iff, List.all_eq_true, List.all_eq_true]
  simp only [mem_escape]

theorem length_le_length_escape
    (text : List Char) :
    text.length ≤ (escape text).length := by
  induction text using escape_induction with
  | nil => exact Nat.le_refl _
  | pair rest ih =>
    simp only [escape, List.length_cons]
    omega
  | single letter rest single ih =>
    rw [escape_cons single, List.length_cons, List.length_cons]
    exact Nat.succ_le_succ ih

theorem escape_eq_self_iff :
    escape text = text ↔ ¬openingBraces <:+: text := by
  induction text using escape_induction with
  | nil => simp [escape, openingBraces]
  | pair rest ih =>
    have longer := length_le_length_escape rest
    constructor
    · intro same
      have lengths := congrArg List.length same
      simp only [escape, List.length_cons] at lengths
      omega
    · intro free
      exact absurd ⟨[], rest, rfl⟩ free
  | single letter rest single ih =>
    rw [escape_cons single, List.cons.injEq, List.infix_cons_iff, not_or]
    simp [single, ih]

/-! ## Opening braces at the end -/

/-- The number of opening braces that a text ends with. -/
def endingBraces (text : List Char) : Nat :=
  (text.rtakeWhile (· == '{')).length

@[simp]
theorem endingBraces_nil :
    endingBraces [] = 0 :=
  rfl

theorem endingBraces_le_length
    (text : List Char) :
    endingBraces text ≤ text.length :=
  (List.rtakeWhile_suffix _ text).length_le

theorem endingBraces_eq_length_iff :
    endingBraces text = text.length ↔ ∀ letter ∈ text, letter = '{' := by
  constructor
  · intro whole
    have same := (List.rtakeWhile_suffix _ text).eq_of_length whole
    simpa using List.rtakeWhile_eq_self_iff.mp same
  · intro braces
    have same : text.rtakeWhile (· == '{') = text :=
      List.rtakeWhile_eq_self_iff.mpr (by simpa using braces)
    rw [endingBraces, same]

theorem endingBraces_cons :
    endingBraces (letter :: rest) =
      if endingBraces rest = rest.length ∧ letter = '{' then rest.length + 1
      else endingBraces rest := by
  have lengths : ∀ text : List Char,
      endingBraces text = (text.reverse.takeWhile (· == '{')).length := by
    intro text
    rw [endingBraces, List.rtakeWhile, List.length_reverse]
  rw [lengths, lengths, List.reverse_cons, List.takeWhile_append, List.length_reverse]
  by_cases whole : (rest.reverse.takeWhile (· == '{')).length = rest.length
  · by_cases brace : letter = '{'
    · simp [whole, brace]
    · simp [whole, brace]
  · simp [whole]

/-- A pair of braces in front does not matter to whether the number is even. -/
theorem even_endingBraces_pair :
    Even (endingBraces ('{' :: '{' :: rest)) ↔ Even (endingBraces rest) := by
  rw [endingBraces_cons, endingBraces_cons]
  by_cases whole : endingBraces rest = rest.length
  · simp [whole, Nat.even_add_one]
  · have bound := endingBraces_le_length rest
    have less : endingBraces rest ≠ rest.length + 1 := by omega
    simp [whole, less]

theorem endingBraces_cons_of_single
    (single : ¬openingBraces <+: letter :: rest)
    (present : rest ≠ []) :
    endingBraces (letter :: rest) = endingBraces rest := by
  rw [endingBraces_cons, if_neg]
  rintro ⟨whole, rfl⟩
  apply single
  have brace := endingBraces_eq_length_iff.mp whole (rest.head present) (List.head_mem present)
  exact openingBraces_prefix_cons.mpr ⟨rfl, brace ▸ List.head?_eq_some_head present⟩

/-- No pair of braces straddles the end of a literal and what stands behind it. -/
theorem even_endingBraces_of_single
    (single : ¬openingBraces <+: letter :: rest)
    (even : rest ≠ [] → Even (endingBraces rest))
    (other : rest = [] → letter ≠ '{') :
    Even (endingBraces (letter :: rest)) := by
  by_cases present : rest = []
  · have different := other present
    subst present
    rw [endingBraces_cons, if_neg fun brace => different brace.2]
    exact Even.zero
  · rw [endingBraces_cons_of_single single present]
    exact even present

/-! ## Reading escaped texts -/

/--
A literal that is spelled in front of a text is read as it was, unless a brace
at its end pairs up with one at the front of the text.
-/
theorem partsFrom_escape_append
    (apart : rest.head? = some '{' → Even (endingBraces text)) :
    partsFrom column (escape text ++ rest) =
      (fun parts => text.foldr Part.push parts) <$>
        partsFrom (column + (escape text).length) rest := by
  induction text using escape_induction generalizing column with
  | nil => simp [escape]
  | pair text ih =>
    have inner := @ih (column + 4) fun brace => even_endingBraces_pair.mp (apart brace)
    show partsFrom column ('{' :: '{' :: '{' :: '{' :: (escape text ++ rest)) = _
    rw [partsFrom, inner, Functor.map_map, Nat.add_assoc, Nat.add_comm 4]
    rfl
  | single letter text single ih =>
    have still : ¬openingBraces <+: letter :: (escape text ++ rest) := by
      rw [openingBraces_prefix_cons] at single ⊢
      rintro ⟨rfl, brace⟩
      cases text with
      | nil =>
        have odd := apart brace
        revert odd
        decide
      | cons next text =>
        rw [List.head?_append, head?_escape] at brace
        exact single ⟨rfl, brace⟩
    have inner := @ih (column + 1) fun brace => by
      by_cases present : text = []
      · rw [present]
        decide
      · rw [← endingBraces_cons_of_single single present]
        exact apart brace
    rw [escape_cons single, List.cons_append, partsFrom_cons_of_single still, inner,
      Functor.map_map, List.length_cons, Nat.add_assoc, Nat.add_comm 1]
    rfl

/-- The template of an escaped text has the letters of the text as its only part. -/
theorem partsFrom_escape :
    partsFrom column (escape text) = .ok (text.foldr Part.push []) := by
  have whole := @partsFrom_escape_append column text [] fun head => nomatch head
  rw [List.append_nil, partsFrom] at whole
  exact whole

end Cookbook.Template

namespace Cookbook.Bindings

open Template

/-- An escaped text expands to the text, whatever the variables are. -/
theorem expand_escaped
    (bindings : Bindings)
    (text : String)
    (recipe : Option String) :
    bindings.expand (escaped text) recipe = .ok text := by
  refine expand_eq_ok_iff.mpr ⟨text.toList.foldr Part.push [], ?_, ?_⟩
  · rw [Template.parts, toList_escaped, partsFrom_escape]
  · rw [fill_foldr_push, fill]
    exact congrArg Except.ok (List.append_nil text.toList)

end Cookbook.Bindings
