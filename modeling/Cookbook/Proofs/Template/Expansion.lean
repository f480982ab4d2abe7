import Cookbook.Proofs.Template.Spelling

/-!
# What templates expand to

A template is read as the parts that it spells, and with the values of its
variables it expands to these parts put together.  Values are not read again.
A template that spells no parts is refused for the first opening braces that
no placeholder follows, and one with variables that have no value is refused
for the first of these.
-/

namespace Cookbook

/-- What a part contributes to an expansion. -/
def Part.content (value : String → Option String) : Part → List Char
  | .literal text => text
  | .placeholder name => ((value name).getD "").toList

namespace Template

variable
    {name : String}
    {parts : List Part}
    {value : String → Option String}

/-- The variables that parts name, in order. -/
def namesIn (parts : List Part) : List String :=
  parts.filterMap Part.name?

/--
At a column of a text, behind written parts, stand two opening braces that are
neither doubled nor the beginning of a placeholder.
-/
def Malformed (text : List Char) (column : Nat) : Prop :=
  ∃ parts front rest,
    Written parts front (openingBraces ++ rest) ∧
      text = front ++ (openingBraces ++ rest) ∧ column = front.length + 1 ∧
      ¬openingBraces <+: rest ∧
      ∀ name slot, Identifier.isIdentifier name.toList = true → Slot name slot →
        ¬slot <+: openingBraces ++ rest

/-! ## Reading templates -/

theorem written_of_partsFrom
    {column : Nat}
    {text : List Char}
    (read : partsFrom column text = .ok parts) :
    Written parts text [] := by
  have reads := read_partsFrom column text
  rw [read] at reads
  cases reads with
  | parts written => exact written

theorem parts_eq_ok_iff
    {template : String} :
    Template.parts template = .ok parts ↔
      WellFormed parts ∧ Spells parts template.toList := by
  constructor
  · intro read
    have written := written_of_partsFrom read
    exact ⟨written.wellFormed, written.spells⟩
  · rintro ⟨wellFormed, spells⟩
    have written : Written parts template.toList [] :=
      ⟨wellFormed, spells, fun head => nomatch head⟩
    exact (Read.parts written).partsFrom_eq

theorem placeholder?_eq_none_iff
    {rest : List Char} :
    placeholder? rest = none ↔
      ∀ name slot, Identifier.isIdentifier name.toList = true → Slot name slot →
        ¬slot <+: openingBraces ++ rest := by
  constructor
  · rintro absent name slot named slotted ⟨later, whole⟩
    have found := placeholder?_eq_some_iff.mpr ⟨named, slot, slotted, whole.symm⟩
    rw [absent] at found
    cases found
  · intro unwritten
    by_contra present
    rcases Option.ne_none_iff_exists'.mp present with ⟨⟨name, later⟩, found⟩
    rcases placeholder?_eq_some_iff.mp found with ⟨named, slot, slotted, whole⟩
    exact unwritten name slot named slotted ⟨later, whole.symm⟩

theorem malformed_of_partsFrom
    {column : Nat}
    {text : List Char}
    (refused : partsFrom 1 text = .error column) :
    Malformed text column := by
  have reads := read_partsFrom 1 text
  rw [refused] at reads
  cases reads with
  | malformed written single absent =>
    exact ⟨_, _, _, written, rfl, Nat.add_comm 1 _, single, placeholder?_eq_none_iff.mp absent⟩

theorem parts_eq_error_iff
    {template : String}
    {column : Nat} :
    Template.parts template = .error column ↔ Malformed template.toList column := by
  constructor
  · exact malformed_of_partsFrom
  · rintro ⟨parts, front, rest, written, whole, rfl, single, unwritten⟩
    have absent := placeholder?_eq_none_iff.mpr unwritten
    rw [Template.parts, whole, Nat.add_comm]
    exact (Read.malformed written single absent).partsFrom_eq

/-! ## Filling in values -/

theorem fill_of_defined
    (defined : ∀ name ∈ namesIn parts, (value name).isSome = true) :
    fill value parts = .ok (parts.flatMap (Part.content value)) := by
  induction parts with
  | nil => rfl
  | cons part parts ih =>
    cases part with
    | literal text =>
      rw [fill, ih defined]
      rfl
    | placeholder name =>
      rcases List.forall_mem_cons.mp defined with ⟨first, later⟩
      rcases Option.isSome_iff_exists.mp first with ⟨text, given⟩
      simp only [fill, given, ih later, List.flatMap_cons, Part.content, Option.getD_some]
      rfl

theorem fill_of_undefined
    {front back : List String}
    (split : namesIn parts = front ++ name :: back)
    (defined : ∀ earlier ∈ front, (value earlier).isSome = true)
    (undefined : value name = none) :
    fill value parts = .error name := by
  induction parts generalizing front with
  | nil => simp [namesIn] at split
  | cons part parts ih =>
    cases part with
    | literal text =>
      rw [fill, ih split defined]
      rfl
    | placeholder first =>
      change first :: namesIn parts = front ++ name :: back at split
      cases front with
      | nil =>
        rcases List.cons.inj split with ⟨rfl, _⟩
        simp only [fill, undefined]
      | cons earlier front =>
        rcases List.cons.inj split with ⟨rfl, rest⟩
        rcases List.forall_mem_cons.mp defined with ⟨given, later⟩
        rcases Option.isSome_iff_exists.mp given with ⟨text, found⟩
        simp only [fill, found, ih rest later]
        rfl

theorem isSome_of_fill
    {text : List Char}
    (filled : fill value parts = .ok text) :
    ∀ name ∈ namesIn parts, (value name).isSome = true := by
  induction parts generalizing text with
  | nil => exact List.forall_mem_nil _
  | cons part parts ih =>
    cases part with
    | literal letters =>
      rcases exists_of_map_eq_ok filled with ⟨later, inner, _⟩
      exact ih inner
    | placeholder name =>
      simp only [fill] at filled
      split at filled
      · cases filled
      · rename_i given
        rcases exists_of_map_eq_ok filled with ⟨later, inner, _⟩
        show ∀ other ∈ name :: namesIn parts, (value other).isSome = true
        refine List.forall_mem_cons.mpr ⟨?_, ?_⟩
        · rw [given, Option.isSome_some]
        · exact ih inner

theorem of_fill_eq_error
    (refused : fill value parts = .error name) :
    name ∈ namesIn parts ∧ value name = none := by
  induction parts with
  | nil => cases refused
  | cons part parts ih =>
    cases part with
    | literal text => exact ih (eq_error_of_map_eq_error refused)
    | placeholder first =>
      simp only [fill] at refused
      split at refused
      · rename_i absent
        cases refused
        exact ⟨List.mem_cons_self, absent⟩
      · rcases ih (eq_error_of_map_eq_error refused) with ⟨later, absent⟩
        exact ⟨List.mem_cons_of_mem first later, absent⟩

/-- Any parts can be spelled; only well-formed ones are read back. -/
theorem exists_spells
    (parts : List Part) :
    ∃ text, Spells parts text := by
  induction parts with
  | nil => exact ⟨[], .nil⟩
  | cons part parts ih =>
    rcases ih with ⟨text, spells⟩
    cases part with
    | literal letters => exact ⟨_, .literal spells⟩
    | placeholder name => exact ⟨_, .placeholder ⟨[], [], .nil, .nil, rfl⟩ spells⟩

end Template

namespace Bindings

open Template

variable
    {bindings : Bindings}
    {template : String}
    {recipe : Option String}
    {parts : List Part}

theorem isSome_value?_iff
    {name : String} :
    (bindings.value? name).isSome = true ↔ name ∈ bindings.names := by
  rw [value?, List.lookup_isSome_iff, names, List.mem_map]
  simp only [beq_iff_eq, @eq_comm _ name]

theorem expand_of_defined
    (read : Template.parts template = .ok parts)
    (defined : ∀ name ∈ namesIn parts, name ∈ bindings.names) :
    bindings.expand template recipe =
      .ok (String.ofList (parts.flatMap (Part.content bindings.value?))) := by
  have given : ∀ name ∈ namesIn parts, (bindings.value? name).isSome = true :=
    fun name inside => isSome_value?_iff.mpr (defined name inside)
  simp only [expand, read, fill_of_defined given]

theorem expand_of_undefined
    {front back : List String}
    {name : String}
    (read : Template.parts template = .ok parts)
    (split : namesIn parts = front ++ name :: back)
    (defined : ∀ earlier ∈ front, earlier ∈ bindings.names)
    (undefined : name ∉ bindings.names) :
    bindings.expand template recipe =
      .error (.undefinedVariable name (some template) recipe) := by
  have given : ∀ earlier ∈ front, (bindings.value? earlier).isSome = true :=
    fun earlier inside => isSome_value?_iff.mpr (defined earlier inside)
  have absent : bindings.value? name = none := by
    rw [← isSome_value?_iff, Option.not_isSome_iff_eq_none] at undefined
    exact undefined
  simp only [expand, read, fill_of_undefined split given absent]

theorem expand_of_malformed
    {column : Nat}
    (refused : Template.parts template = .error column) :
    bindings.expand template recipe =
      .error (.badTemplate template (.malformedPlaceholder column) recipe) := by
  simp only [expand, refused]

theorem exists_parts_of_expand
    {text : String}
    (expanded : bindings.expand template recipe = .ok text) :
    ∃ parts, Template.parts template = .ok parts ∧
      (∀ name ∈ namesIn parts, name ∈ bindings.names) ∧
        text.toList = parts.flatMap (Part.content bindings.value?) := by
  have whole := expanded
  simp only [expand] at expanded
  split at expanded
  · cases expanded
  · rename_i parts read
    split at expanded
    · cases expanded
    · rename_i letters filled
      have defined : ∀ name ∈ namesIn parts, name ∈ bindings.names :=
        fun name named => isSome_value?_iff.mp (isSome_of_fill filled name named)
      rw [expand_of_defined read defined] at whole
      cases whole
      exact ⟨parts, read, defined, String.toList_ofList⟩

/-- Why a template does not expand. -/
inductive Unexpanded (bindings : Bindings) (template : String) (recipe : Option String) :
    Failure → Prop
  | malformed {column : Nat}
      (refused : Template.parts template = .error column) :
      Unexpanded bindings template recipe
        (.badTemplate template (.malformedPlaceholder column) recipe)
  | undefined {parts : List Part} {name : String}
      (read : Template.parts template = .ok parts)
      (named : name ∈ namesIn parts)
      (absent : name ∉ bindings.names) :
      Unexpanded bindings template recipe (.undefinedVariable name (some template) recipe)

theorem unexpanded_of_expand
    {failure : Failure}
    (refused : bindings.expand template recipe = .error failure) :
    Unexpanded bindings template recipe failure := by
  simp only [expand] at refused
  split at refused
  · rename_i column malformed
    cases refused
    exact .malformed malformed
  · rename_i parts read
    split at refused
    · rename_i name undefined
      cases refused
      rcases of_fill_eq_error undefined with ⟨named, absent⟩
      apply Unexpanded.undefined read named
      rw [← isSome_value?_iff, absent]
      exact Bool.false_ne_true
    · cases refused

/-- What the expansion of a template with the given parts is, or why there is none. -/
structure Expands (bindings : Bindings) (template : String) (recipe : Option String)
    (parts : List Part) : Prop where
  defined :
    (∀ name ∈ namesIn parts, name ∈ bindings.names) →
      bindings.expand template recipe =
        .ok (String.ofList (parts.flatMap (Part.content bindings.value?)))
  undefined :
    ∀ front name back,
      namesIn parts = front ++ name :: back →
        (∀ earlier ∈ front, earlier ∈ bindings.names) →
          name ∉ bindings.names →
            bindings.expand template recipe =
              .error (.undefinedVariable name (some template) recipe)

end Bindings

namespace Template

/--
Templates are exactly the spellings of well-formed parts.  Each spelling is
read back as its parts, and expands to them with the values in place, or is
refused for its first variable without a value.  Any other text is refused for
its first opening braces that open nothing.
-/
theorem templates_are_spellings :
    (∀ parts, WellFormed parts → ∃ text, Spells parts text) ∧
      ∀ template : String,
        (∀ parts,
          Template.parts template = .ok parts ↔
            WellFormed parts ∧ Spells parts template.toList) ∧
        (∀ column,
          Template.parts template = .error column ↔ Malformed template.toList column) ∧
        ∀ (bindings : Bindings) (recipe : Option String),
          (∀ parts,
            WellFormed parts → Spells parts template.toList →
              bindings.Expands template recipe parts) ∧
          ∀ column,
            Malformed template.toList column →
              bindings.expand template recipe =
                .error (.badTemplate template (.malformedPlaceholder column) recipe) := by
  refine ⟨fun parts _ => exists_spells parts, fun template => ⟨?_, ?_, ?_⟩⟩
  · intro parts
    exact parts_eq_ok_iff
  · intro column
    exact parts_eq_error_iff
  · intro bindings recipe
    constructor
    · intro parts wellFormed spells
      have read := parts_eq_ok_iff.mpr ⟨wellFormed, spells⟩
      constructor
      · exact Bindings.expand_of_defined read
      · intro front name back split
        exact Bindings.expand_of_undefined read split
    · intro column malformed
      exact Bindings.expand_of_malformed (parts_eq_error_iff.mpr malformed)

example :
    partsFrom 1 ['{', '{', '{', '{', '{', '{', 'x', '}', '}', '{'] =
      .ok [.literal ['{', '{'], .placeholder "x", .literal ['{']] := by
  cbv

example : partsFrom 1 ['{', '{', '{', 'x', '}', '}'] = .error 1 := by
  cbv

end Template

end Cookbook
