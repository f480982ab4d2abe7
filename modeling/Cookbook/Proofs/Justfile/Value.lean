import Cookbook.Justfile.Literal
import Cookbook.Proofs.Except

/-!
# Literals

A value is meant to be one literal, and a literal ends where its own quote
stands for the first time.  Only the two ends of a written value are looked at
when it is read, so its own quote may stand inside as well, and what is read
then goes on behind it.  This is the only difference: whatever else is read as
a value is a complete literal.
-/

namespace Cookbook.Justfile

variable
    {code letter mark : Char}
    {text inner content written front back : List Char}

/-! ## The grammar of literals -/

/-- The escapes between double quotes, each with the character that it stands for. -/
def escapes : List (Char × Char) :=
  [('n', '\n'), ('t', '\t'), ('r', '\r'), ('"', '"'), ('\\', '\\')]

/--
A text between double quotes with its content.  Every backslash belongs to an
escape, and a double quote stands for itself only where quotes are `allowed`.
-/
inductive Spelled (allowed : Prop) : List Char → List Char → Prop
  | nil :
      Spelled allowed [] []
  | letter {letter : Char} {text content : List Char}
      (plain : letter ≠ '\\')
      (kept : letter = '"' → allowed)
      (rest : Spelled allowed text content) :
      Spelled allowed (letter :: text) (letter :: content)
  | escape {code letter : Char} {text content : List Char}
      (known : (code, letter) ∈ escapes)
      (rest : Spelled allowed text content) :
      Spelled allowed ('\\' :: code :: text) (letter :: content)

/-- A literal with its content, its own quote inside it only where quotes are `allowed`. -/
inductive Literal (allowed : Prop) : List Char → List Char → Prop
  | single {content : List Char}
      (kept : '\'' ∈ content → allowed) :
      Literal allowed ('\'' :: (content ++ ['\''])) content
  | double {text content : List Char}
      (spelled : Spelled allowed text content) :
      Literal allowed ('"' :: (text ++ ['"'])) content

/-- A text between quotes of one kind in which a literal ends before the text does. -/
inductive Interrupted : List Char → Prop
  | single {front back : List Char} :
      Interrupted ('\'' :: (front ++ '\'' :: back ++ ['\'']))
  | double {front back content : List Char}
      (spelled : Spelled False front content) :
      Interrupted ('"' :: (front ++ '"' :: back ++ ['"']))

/-! ## What is read as a value -/

theorem unescape?_eq_some_iff :
    unescape? code = some letter ↔ (code, letter) ∈ escapes := by
  have each : (code, letter) ∈ escapes ↔
      code = 'n' ∧ letter = '\n' ∨ code = 't' ∧ letter = '\t' ∨ code = 'r' ∧ letter = '\r' ∨
        code = '"' ∧ letter = '"' ∨ code = '\\' ∧ letter = '\\' := by
    simp [escapes]
  rw [each]
  unfold unescape?
  split <;> simp_all [eq_comm]

theorem decodeEscapes_eq_ok_iff :
    decodeEscapes text = .ok content ↔ Spelled True text content := by
  constructor
  · intro decoded
    fun_induction decodeEscapes text generalizing content with
    | case1 =>
      cases decoded
      exact .nil
    | case2 => cases decoded
    | case3 => cases decoded
    | case4 code text letter known ih =>
      rcases exists_of_map_eq_ok decoded with ⟨rest, inner, rfl⟩
      exact .escape (unescape?_eq_some_iff.mp known) (ih inner)
    | case5 letter text single pair ih =>
      rcases exists_of_map_eq_ok decoded with ⟨rest, inner, rfl⟩
      refine .letter ?_ (fun _ => trivial) (ih inner)
      rintro rfl
      cases text with
      | nil => exact single rfl rfl
      | cons code text => exact pair code text rfl rfl
  · intro spelled
    induction spelled with
    | nil => rfl
    | letter plain _ _ ih =>
      rw [decodeEscapes, ih]
      · rfl
      · exact fun same _ => plain same
      · exact fun code text same _ => plain same
    | escape known _ ih =>
      simp only [decodeEscapes, unescape?_eq_some_iff.mpr known, ih]
      rfl

theorem between?_eq_some_iff :
    between? mark written = some inner ↔ written = mark :: (inner ++ [mark]) := by
  constructor
  · intro found
    unfold between? at found
    split at found
    · cases found
    · rename_i first rest
      split at found
      · rename_i marked
        rw [Bool.and_eq_true, beq_iff_eq, beq_iff_eq] at marked
        rcases List.getLast?_eq_some_iff.mp marked.2 with ⟨body, rfl⟩
        cases found
        rw [marked.1, List.dropLast_concat]
      · cases found
  · rintro rfl
    simp [between?]

/-- A value is read from a text between quotes of one kind, whatever quotes stand inside. -/
theorem decodeValue_eq_ok_iff :
    decodeValue written = .ok content ↔ Literal True written content := by
  constructor
  · intro decoded
    unfold decodeValue at decoded
    split at decoded
    · rename_i single
      cases decoded
      rw [between?_eq_some_iff.mp single]
      exact .single fun _ => trivial
    · split at decoded
      · rename_i double
        rw [between?_eq_some_iff.mp double]
        exact .double (decodeEscapes_eq_ok_iff.mp decoded)
      · cases decoded
  · intro literal
    cases literal with
    | single =>
      have single : between? '\'' ('\'' :: (content ++ ['\''])) = some content :=
        between?_eq_some_iff.mpr rfl
      rw [decodeValue, single]
    | @double text _ spelled =>
      have single : between? '\'' ('"' :: (text ++ ['"'])) = none := rfl
      have double : between? '"' ('"' :: (text ++ ['"'])) = some text :=
        between?_eq_some_iff.mpr rfl
      rw [decodeValue, single, double]
      exact decodeEscapes_eq_ok_iff.mpr spelled

/-! ## Where a literal ends early -/

/-- A text with a content has no quote that stands for itself, or a first one. -/
theorem Spelled.free_or_split
    (spelled : Spelled True text content) :
    Spelled False text content ∨
      ∃ front back shown, text = front ++ '"' :: back ∧ Spelled False front shown := by
  induction spelled with
  | nil => exact Or.inl .nil
  | @letter letter text content plain _ _ ih =>
    by_cases quote : letter = '"'
    · subst quote
      exact Or.inr ⟨[], text, [], rfl, .nil⟩
    · rcases ih with free | ⟨front, back, shown, rfl, free⟩
      · exact Or.inl (.letter plain quote free)
      · exact Or.inr ⟨letter :: front, back, letter :: shown, rfl, .letter plain quote free⟩
  | @escape code letter text content known _ ih =>
    rcases ih with free | ⟨front, back, shown, rfl, free⟩
    · exact Or.inl (.escape known free)
    · exact Or.inr ⟨'\\' :: code :: front, back, letter :: shown, rfl, .escape known free⟩

/-- No quote stands for itself behind the front of a text without such quotes. -/
theorem Spelled.not_split
    (front : Spelled False text content)
    (whole : Spelled False (text ++ '"' :: back) inner) :
    False := by
  induction front generalizing inner with
  | nil =>
    cases whole with
    | letter _ kept _ => exact kept rfl
  | letter plain _ _ ih =>
    rw [List.cons_append] at whole
    generalize spelled : _ ++ '"' :: back = behind at whole
    cases whole with
    | letter _ _ rest => exact ih (spelled.symm ▸ rest)
    | escape => exact plain rfl
  | escape _ _ ih =>
    rw [List.cons_append, List.cons_append] at whole
    cases whole with
    | letter plain _ _ => exact plain rfl
    | escape _ rest => exact ih rest

theorem Literal.complete_or_interrupted
    (literal : Literal True written content) :
    Literal False written content ∨ Interrupted written := by
  cases literal with
  | single =>
    by_cases inside : '\'' ∈ content
    · rcases List.append_of_mem inside with ⟨front, back, rfl⟩
      exact Or.inr .single
    · exact Or.inl (.single inside)
  | double spelled =>
    rcases spelled.free_or_split with free | ⟨front, back, shown, rfl, free⟩
    · exact Or.inl (.double free)
    · exact Or.inr (.double free)

theorem Literal.not_interrupted
    (literal : Literal False written content) :
    ¬Interrupted written := by
  intro interrupted
  cases interrupted with
  | @single front back =>
    generalize whole : '\'' :: (front ++ '\'' :: back ++ ['\'']) = text at literal
    cases literal with
    | single free =>
      have same := List.append_cancel_right (List.cons.inj whole).2
      exact free (same ▸ List.mem_append_right front List.mem_cons_self)
    | double => exact absurd (List.cons.inj whole).1 (by decide)
  | @double front back shown spelled =>
    generalize whole : '"' :: (front ++ '"' :: back ++ ['"']) = text at literal
    cases literal with
    | single => exact absurd (List.cons.inj whole).1 (by decide)
    | double free =>
      have same := List.append_cancel_right (List.cons.inj whole).2
      exact spelled.not_split (same.symm ▸ free)

end Cookbook.Justfile
