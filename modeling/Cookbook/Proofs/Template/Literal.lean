import Cookbook.Proofs.Except
import Cookbook.Substitution

/-!
# Text without braces in templates

Text in which no opening brace occurs is kept as it is: in front of a template
it stands in front of the expansion, and a template that consists of it expands
to itself.
-/

namespace Cookbook.Template

/-- The two characters that open a placeholder. -/
def openingBraces : List Char :=
  ['{', '{']

variable
    {column : Nat}
    {letter : Char}
    {front rest : List Char}
    {parts : List Part}

theorem openingBraces_prefix_cons :
    openingBraces <+: letter :: rest ↔ letter = '{' ∧ rest.head? = some '{' := by
  cases rest with
  | nil => simp [openingBraces]
  | cons next rest => simp [openingBraces, eq_comm]

/-- A letter at which no placeholder opens is a literal. -/
theorem partsFrom_cons_of_single
    (single : ¬openingBraces <+: letter :: rest) :
    partsFrom column (letter :: rest) = Part.push letter <$> partsFrom (column + 1) rest := by
  rw [partsFrom]
  · rintro later rfl rfl
    exact single ⟨'{' :: '{' :: later, rfl⟩
  · rintro later rfl rfl
    exact single ⟨later, rfl⟩

theorem partsFrom_cons
    (other : letter ≠ '{') :
    partsFrom column (letter :: rest) = Part.push letter <$> partsFrom (column + 1) rest := by
  apply partsFrom_cons_of_single
  intro opens
  exact other (openingBraces_prefix_cons.mp opens).1

theorem partsFrom_append
    (free : '{' ∉ front) :
    partsFrom column (front ++ rest) =
      (fun parts => front.foldr Part.push parts) <$>
        partsFrom (column + front.length) rest := by
  induction front generalizing column with
  | nil => simp
  | cons letter front ih =>
    have other : letter ≠ '{' := fun brace => free (brace ▸ List.mem_cons_self)
    have later : '{' ∉ front := fun inside => free (List.mem_cons_of_mem letter inside)
    rw [List.cons_append, partsFrom_cons other, ih later, Functor.map_map,
      List.length_cons, Nat.add_assoc, Nat.add_comm 1]
    rfl

theorem fill_push
    (value : String → Option String) :
    fill value (Part.push letter parts) = (letter :: ·) <$> fill value parts := by
  cases parts with
  | nil => rfl
  | cons part rest =>
    cases part with
    | placeholder name => rfl
    | literal text =>
      simp only [Part.push, fill, Functor.map_map]
      rfl

theorem fill_foldr_push
    (value : String → Option String) :
    fill value (front.foldr Part.push parts) = (front ++ ·) <$> fill value parts := by
  induction front with
  | nil => simp
  | cons letter front ih =>
    rw [List.foldr_cons, fill_push, ih, Functor.map_map]
    rfl

end Cookbook.Template

namespace Cookbook.Bindings

open Template

variable
    {bindings : Bindings}
    {front rest : List Char}
    {template expansion : String}
    {recipe : Option String}

theorem expand_eq_ok_iff :
    bindings.expand template recipe = .ok expansion ↔
      ∃ parts, Template.parts template = .ok parts ∧
        fill bindings.value? parts = .ok expansion.toList := by
  simp only [expand]
  cases Template.parts template with
  | error column => simp
  | ok parts =>
    cases filled : fill bindings.value? parts with
    | error name => simp [filled]
    | ok text =>
      simp only [Except.ok.injEq, exists_eq_left', filled]
      constructor
      · rintro rfl
        rw [String.toList_ofList]
      · rintro rfl
        rw [String.ofList_toList]

/-- Text without braces in front of a template stands in front of its expansion. -/
theorem exists_of_expand_append
    (free : '{' ∉ front)
    (written : template.toList = front ++ rest)
    (expanded : bindings.expand template recipe = .ok expansion) :
    ∃ later, expansion.toList = front ++ later := by
  rcases expand_eq_ok_iff.mp expanded with ⟨parts, read, filled⟩
  rw [Template.parts, written, partsFrom_append free] at read
  rcases exists_of_map_eq_ok read with ⟨inner, _, rfl⟩
  rw [fill_foldr_push] at filled
  rcases exists_of_map_eq_ok filled with ⟨later, _, same⟩
  exact ⟨later, same.symm⟩

/-- A text without braces expands to itself. -/
theorem expand_of_free
    (free : '{' ∉ template.toList) :
    bindings.expand template recipe = .ok template := by
  refine expand_eq_ok_iff.mpr ⟨template.toList.foldr Part.push [], ?_, ?_⟩
  · have read := @partsFrom_append 1 template.toList [] free
    rw [List.append_nil, partsFrom] at read
    exact read
  · rw [fill_foldr_push, fill]
    exact congrArg Except.ok (List.append_nil _)

end Cookbook.Bindings
