import Cookbook.Proofs.Template.Placeholder
import Mathlib.Data.List.Chain

/-!
# How templates are spelled

Parts are spelled by escaping their literals and by putting their names between
braces.  Not every list of parts can be spelled so that it is read back: two
literals that touch become one, and a brace at the end of a literal may pair up
with the braces behind it.  The lists that can are well formed, and templates
are exactly their spellings.
-/

namespace Cookbook.Template

variable
    {column : Nat}
    {letter : Char}
    {name : String}
    {text front behind rest slot : List Char}
    {part : Part}
    {parts later : List Part}

/-! ## Well-formed parts and their spellings -/

/--
Which parts may stand behind each other: literals that touch would be one, and
a literal in front of a placeholder ends with an even number of opening braces.
-/
def Adjoins : Part → Part → Prop
  | .literal _, .literal _ => False
  | .literal text, .placeholder _ => Even (endingBraces text)
  | .placeholder _, _ => True

/-- A literal is not empty, and a placeholder names an identifier. -/
def Sound : Part → Prop
  | .literal text => text ≠ []
  | .placeholder name => Identifier.isIdentifier name.toList = true

/-- Parts that can be spelled so that they are read back. -/
structure WellFormed (parts : List Part) : Prop where
  sound : ∀ part ∈ parts, Sound part
  adjoining : parts.IsChain Adjoins

/-- A spelling of parts: literals are escaped, and names are put between braces. -/
inductive Spells : List Part → List Char → Prop
  | nil :
      Spells [] []
  | literal {text rest : List Char} {later : List Part}
      (spells : Spells later rest) :
      Spells (.literal text :: later) (escape text ++ rest)
  | placeholder {name : String} {slot rest : List Char} {later : List Part}
      (written : Slot name slot)
      (spells : Spells later rest) :
      Spells (.placeholder name :: later) (slot ++ rest)

/-- Opening braces behind some parts do not pair up with braces at their end. -/
def Sealed (parts : List Part) : Prop :=
  ∀ text, parts.getLast? = some (.literal text) → Even (endingBraces text)

/-! ## Reading spellings -/

/-- Puts parts in front of others; literals that touch become one. -/
def precede (parts later : List Part) : List Part :=
  parts.foldr
    (fun part behind =>
      match part with
      | .literal text => text.foldr Part.push behind
      | .placeholder name => .placeholder name :: behind)
    later

/-- No literal stands behind a literal. -/
theorem WellFormed.other
    (wellFormed : WellFormed (.literal text :: parts))
    (first : List Char) :
    parts.head? ≠ some (.literal first) := by
  intro head
  rcases List.head?_eq_some_iff.mp head with ⟨later, rfl⟩
  exact (List.isChain_cons_cons.mp wellFormed.adjoining).1

theorem WellFormed.cons
    (sound : Sound part)
    (fits : ∀ next ∈ parts.head?, Adjoins part next)
    (wellFormed : WellFormed parts) :
    WellFormed (part :: parts) where
  sound := List.forall_mem_cons.mpr ⟨sound, wellFormed.sound⟩
  adjoining := wellFormed.adjoining.cons fits

theorem WellFormed.tail
    (wellFormed : WellFormed (part :: parts)) :
    WellFormed parts where
  sound := (List.forall_mem_cons.mp wellFormed.sound).2
  adjoining := wellFormed.adjoining.tail

theorem Sealed.cons
    (last : parts = [] → ∀ text, part = .literal text → Even (endingBraces text))
    (closed : Sealed parts) :
    Sealed (part :: parts) := by
  intro text ends
  cases parts with
  | nil => exact last rfl text (Option.some.inj ends)
  | cons next parts => exact closed text ends

theorem Sealed.tail
    (closed : Sealed (part :: parts)) :
    Sealed parts := by
  intro text ends
  cases parts with
  | nil => cases ends
  | cons next parts => exact closed text ends

theorem foldr_push_of_ne_nil
    (present : text ≠ [])
    (other : ∀ first, parts.head? ≠ some (.literal first)) :
    text.foldr Part.push parts = .literal text :: parts := by
  induction text with
  | nil => exact absurd rfl present
  | cons letter text ih =>
    cases text with
    | nil =>
      cases parts with
      | nil => rfl
      | cons part parts =>
        cases part with
        | literal first => exact absurd rfl (other first)
        | placeholder name => rfl
    | cons next text =>
      rw [List.foldr_cons, ih (List.cons_ne_nil next text)]
      rfl

theorem precede_nil
    (wellFormed : WellFormed parts) :
    precede parts [] = parts := by
  induction parts with
  | nil => rfl
  | cons part parts ih =>
    have inner := ih wellFormed.tail
    cases part with
    | placeholder name => exact congrArg (Part.placeholder name :: ·) inner
    | literal text =>
      show text.foldr Part.push (precede parts []) = _
      rw [inner]
      exact foldr_push_of_ne_nil (wellFormed.sound _ List.mem_cons_self) wellFormed.other

/--
A text spells well-formed parts, and what stands behind it does not pair up
with a brace at its end.
-/
structure Written (parts : List Part) (text behind : List Char) : Prop where
  wellFormed : WellFormed parts
  spells : Spells parts text
  apart : behind.head? = some '{' → Sealed parts

/-- Behind a literal comes a placeholder, or what stands behind all parts. -/
theorem WellFormed.even
    (wellFormed : WellFormed (.literal text :: later))
    (spells : Spells later rest)
    (apart : behind.head? = some '{' → Sealed (.literal text :: later))
    (brace : (rest ++ behind).head? = some '{') :
    Even (endingBraces text) := by
  cases later with
  | nil =>
    cases spells
    exact apart brace text rfl
  | cons part later =>
    have first := (List.isChain_cons_cons.mp wellFormed.adjoining).1
    cases part with
    | literal _ => cases first
    | placeholder name => exact first

/-- Written parts are read in front of whatever the text behind them is read as. -/
theorem Written.partsFrom_append
    (written : Written parts text behind) :
    partsFrom column (text ++ behind) =
      precede parts <$> partsFrom (column + text.length) behind := by
  rcases written with ⟨wellFormed, spells, apart⟩
  induction spells generalizing column with
  | nil => exact (id_map (partsFrom column behind)).symm
  | @literal text rest later spells ih =>
    have inner := @ih (column + (escape text).length) wellFormed.tail
      fun brace => (apart brace).tail
    rw [List.append_assoc, partsFrom_escape_append (wellFormed.even spells apart), inner, Functor.map_map,
      List.length_append, Nat.add_assoc]
    rfl
  | @placeholder name slot rest later slotted spells ih =>
    have inner := @ih (column + slot.length) wellFormed.tail fun brace => (apart brace).tail
    have named := wellFormed.sound _ List.mem_cons_self
    rw [List.append_assoc, partsFrom_slot_append named slotted, inner, Functor.map_map,
      List.length_append, Nat.add_assoc]
    rfl

/-! ## Every text is read as it is written -/

/--
A literal is written in front of parts that do not begin with one, and no brace
at its end pairs up with what stands behind it.
-/
structure Divides (text : List Char) (later : List Part) (rest behind : List Char) : Prop where
  written : Written later rest behind
  other : ∀ first, later.head? ≠ some (.literal first)
  even : (rest ++ behind).head? = some '{' → Even (endingBraces text)

theorem Written.nil
    (behind : List Char) :
    Written [] [] behind where
  wellFormed := ⟨List.forall_mem_nil _, .nil⟩
  spells := .nil
  apart := fun _ _ ends => nomatch ends

theorem Written.placeholder
    (named : Identifier.isIdentifier name.toList = true)
    (slotted : Slot name slot)
    (written : Written parts text behind) :
    Written (.placeholder name :: parts) (slot ++ text) behind where
  wellFormed := written.wellFormed.cons named fun _ _ => trivial
  spells := .placeholder slotted written.spells
  apart := fun brace => (written.apart brace).cons fun _ _ same => nomatch same

theorem Spells.head?_placeholder
    (spells : Spells (.placeholder name :: parts) text) :
    (text ++ behind).head? = some '{' := by
  cases spells with
  | placeholder slotted _ =>
    rcases slotted with ⟨before, after, _, _, rfl⟩
    rfl

/-- What a literal is written in front of is written with it. -/
theorem Divides.written_append
    (divides : Divides text parts rest behind) :
    Written (text.foldr Part.push parts) (escape text ++ rest) behind := by
  rcases divides with ⟨written, other, even⟩
  by_cases present : text = []
  · subst present
    exact written
  · rw [foldr_push_of_ne_nil present other]
    constructor
    · refine written.wellFormed.cons present fun next ahead => ?_
      cases next with
      | literal first => exact absurd ahead (other first)
      | placeholder name =>
        rcases List.head?_eq_some_iff.mp ahead with ⟨later, rfl⟩
        exact even written.spells.head?_placeholder
    · exact .literal written.spells
    · intro brace
      refine (written.apart brace).cons ?_
      rintro rfl literal same
      cases same
      have spells := written.spells
      cases spells
      exact even brace

/-- Whatever is written begins with a literal, which may be empty. -/
theorem Written.exists_divides
    (written : Written parts text behind) :
    ∃ literal later rest,
      Divides literal later rest behind ∧
        parts = literal.foldr Part.push later ∧ text = escape literal ++ rest := by
  rcases written with ⟨wellFormed, spells, apart⟩
  cases spells with
  | nil =>
    refine ⟨[], [], [], ⟨.nil behind, ?_, ?_⟩, rfl, rfl⟩
    · intro first head
      cases head
    · intro _
      exact Even.zero
  | @placeholder name slot rest later slotted spells =>
    refine ⟨[], _, _, ⟨⟨wellFormed, .placeholder slotted spells, apart⟩, ?_, ?_⟩, rfl, rfl⟩
    · intro first head
      cases head
    · intro _
      exact Even.zero
  | @literal literal rest later spells =>
    have other := wellFormed.other
    refine ⟨literal, later, rest, ⟨?_, other, ?_⟩, ?_, rfl⟩
    · exact ⟨wellFormed.tail, spells, fun brace => (apart brace).tail⟩
    · exact wellFormed.even spells apart
    · have present := wellFormed.sound _ List.mem_cons_self
      exact (foldr_push_of_ne_nil present other).symm

/-- Four braces in front of what is written stand for two literal ones. -/
theorem Written.pair
    (written : Written parts text behind) :
    Written (Part.push '{' (Part.push '{' parts)) ('{' :: '{' :: '{' :: '{' :: text) behind := by
  rcases written.exists_divides with ⟨literal, later, rest, divides, rfl, rfl⟩
  have longer : Divides ('{' :: '{' :: literal) later rest behind :=
    ⟨divides.written, divides.other, fun brace => even_endingBraces_pair.mpr (divides.even brace)⟩
  exact longer.written_append

/-- A letter that opens no placeholder stands for itself in front of what is written. -/
theorem Written.single
    (single : ¬openingBraces <+: letter :: (text ++ behind))
    (written : Written parts text behind) :
    Written (Part.push letter parts) (letter :: text) behind := by
  rcases written.exists_divides with ⟨literal, later, rest, divides, rfl, rfl⟩
  have alone : ¬openingBraces <+: letter :: literal := by
    rw [openingBraces_prefix_cons] at single ⊢
    rintro ⟨rfl, brace⟩
    refine single ⟨rfl, ?_⟩
    rw [List.append_assoc, List.head?_append, head?_escape, brace]
    rfl
  have longer : Divides (letter :: literal) later rest behind := by
    refine ⟨divides.written, divides.other, fun brace => ?_⟩
    apply even_endingBraces_of_single alone
    · intro _
      exact divides.even brace
    · rintro rfl rfl
      exact single (openingBraces_prefix_cons.mpr ⟨rfl, brace⟩)
  have whole := longer.written_append
  rw [escape_cons alone] at whole
  exact whole

/--
What reading gives for a text that starts at a column of its template: written
parts, or the column of opening braces behind written parts where no
placeholder follows.
-/
inductive Read : Nat → List Char → Except Nat (List Part) → Prop
  | parts {column : Nat} {text : List Char} {parts : List Part}
      (written : Written parts text []) :
      Read column text (.ok parts)
  | malformed {column : Nat} {front rest : List Char} {parts : List Part}
      (written : Written parts front (openingBraces ++ rest))
      (single : ¬openingBraces <+: rest)
      (absent : placeholder? rest = none) :
      Read column (front ++ (openingBraces ++ rest)) (.error (column + front.length))

section Read

variable
    {result : Except Nat (List Part)}

theorem Read.pair
    (read : Read (column + 4) text result) :
    Read column ('{' :: '{' :: '{' :: '{' :: text)
      ((fun parts => Part.push '{' (Part.push '{' parts)) <$> result) := by
  cases read with
  | parts written => exact .parts written.pair
  | malformed written single absent =>
    rw [Nat.add_assoc, Nat.add_comm 4]
    exact .malformed written.pair single absent

theorem Read.single
    (single : ¬openingBraces <+: letter :: text)
    (read : Read (column + 1) text result) :
    Read column (letter :: text) (Part.push letter <$> result) := by
  cases read with
  | parts written => exact .parts (written.single (by rwa [List.append_nil]))
  | malformed written other absent =>
    rw [Nat.add_assoc, Nat.add_comm 1]
    exact .malformed (written.single single) other absent

theorem Read.placeholder
    (named : Identifier.isIdentifier name.toList = true)
    (slotted : Slot name slot)
    (read : Read (column + slot.length) text result) :
    Read column (slot ++ text) ((Part.placeholder name :: ·) <$> result) := by
  cases read with
  | parts written => exact .parts (written.placeholder named slotted)
  | malformed written single absent =>
    rw [Nat.add_assoc, ← List.length_append, ← List.append_assoc]
    exact .malformed (written.placeholder named slotted) single absent

end Read

/-- Every text is read as it is written. -/
theorem read_partsFrom
    (column : Nat)
    (text : List Char) :
    Read column text (partsFrom column text) := by
  fun_induction partsFrom column text with
  | case1 column rest ih => exact ih.pair
  | case2 column rest other absent =>
    apply @Read.malformed column [] rest [] (.nil _)
    · rintro ⟨later, rfl⟩
      exact other later rfl
    · exact absent
  | case3 column rest other name later found ih =>
    rcases placeholder?_eq_some_iff.mp found with ⟨named, slot, slotted, whole⟩
    rw [Nat.add_assoc, length_of_slot found whole] at ih ⊢
    show Read column (openingBraces ++ rest) _
    rw [whole]
    exact ih.placeholder named slotted
  | case4 column letter rest other more ih =>
    apply ih.single
    rintro ⟨later, same⟩
    rcases List.cons.inj same with ⟨rfl, rfl⟩
    exact more later rfl rfl
  | case5 column => exact .parts (.nil [])

/-- Reading gives just what a text is written as. -/
theorem Read.partsFrom_eq
    {result : Except Nat (List Part)}
    (read : Read column text result) :
    partsFrom column text = result := by
  cases read with
  | parts written =>
    have whole := @Written.partsFrom_append column _ _ _ written
    rw [List.append_nil, partsFrom] at whole
    rw [whole]
    exact congrArg Except.ok (precede_nil written.wellFormed)
  | malformed written single absent =>
    rw [written.partsFrom_append, partsFrom_of_malformed single absent]
    rfl

end Cookbook.Template
