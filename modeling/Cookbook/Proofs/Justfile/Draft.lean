import Cookbook.Justfile.Reading
import Cookbook.Proofs.Book.Draft
import Cookbook.Proofs.Except
import Mathlib.Data.List.Nodup

/-!
# Drafts of justfiles

What is known after the last line is a draft if each alias stands for a recipe
of the file and each body can be cut into steps.  The recipes of the draft are
made one by one: each takes the aliases of its name from what is known, and
nothing else.
-/

namespace Cookbook.Justfile

variable
    {text path : String}
    {sketches others : List Sketch}
    {recipes further : List Recipe}
    {reading later : Reading}
    {draft : Draft}
    {book : Book}

namespace Reading

theorem names_of_recipesOf
    (made : reading.recipesOf sketches = .ok recipes) :
    recipes.map Recipe.name = sketches.map Sketch.name := by
  induction sketches generalizing recipes with
  | nil =>
    cases made
    rfl
  | cons sketch rest ih =>
    rw [recipesOf] at made
    split at made
    · cases made
    · rcases exists_of_map_eq_ok made with ⟨later, inner, rfl⟩
      rw [List.map_cons, List.map_cons, ih inner]

/-- Recipes take from what is known only the aliases of their names. -/
theorem recipesOf_congr
    (same : ∀ sketch ∈ sketches, later.aliasesOf sketch.name = reading.aliasesOf sketch.name) :
    later.recipesOf sketches = reading.recipesOf sketches := by
  induction sketches with
  | nil => rfl
  | cons sketch rest ih =>
    rcases List.forall_mem_cons.mp same with ⟨first, others⟩
    rw [recipesOf, recipesOf, first, ih others]

theorem recipesOf_append
    (apart : List.Disjoint (sketches.map Sketch.name) (others.map Sketch.name))
    (made : reading.recipesOf sketches = .ok recipes)
    (more : reading.recipesOf others = .ok further) :
    reading.recipesOf (sketches ++ others) = .ok (recipes ++ further) := by
  induction sketches generalizing recipes with
  | nil =>
    cases made
    exact more
  | cons sketch rest ih =>
    rw [List.map_cons, List.disjoint_cons_left] at apart
    rw [recipesOf] at made
    split at made
    · cases made
    · rename_i steps cut
      rcases exists_of_map_eq_ok made with ⟨later, inner, rfl⟩
      have alone : (others.map Sketch.name).contains sketch.name = false := by
        simpa using apart.1
      rw [List.cons_append, recipesOf, cut, ih apart.2 inner, List.map_append,
        List.contains_append, alone, Bool.or_false]
      rfl

/-- A draft says what is known, if every alias has a recipe and every body has steps. -/
theorem draft_eq_ok_iff :
    reading.draft path = .ok draft ↔
      (∀ written ∈ reading.aliases, written.target ∈ reading.sketches.map Sketch.name) ∧
        reading.recipesOf reading.sketches = .ok draft.recipes ∧
        draft.definitions =
          reading.definitions.map (fun entry => (entry.1, Value.text entry.2)) ∧
        draft.default = draft.recipes.head?.map Recipe.name ∧ draft.source = path := by
  have targeted : reading.danglingAlias? = none ↔
      ∀ written ∈ reading.aliases, written.target ∈ reading.sketches.map Sketch.name := by
    rw [danglingAlias?, List.find?_eq_none]
    simp
  rw [← targeted]
  unfold Reading.draft
  constructor
  · intro drafted
    split at drafted
    · cases drafted
    · rename_i known
      split at drafted
      · cases drafted
      · rename_i recipes made
        cases drafted
        exact ⟨known, made, rfl, rfl, rfl⟩
  · rintro ⟨known, made, definitions, default, source⟩
    rw [known, made, ← definitions, ← source]
    show Except.ok ⟨_, _, draft.recipes.head?.map Recipe.name, _⟩ = Except.ok draft
    rw [← default]

/-- A draft of what is known says what is known, in the order of the lines. -/
theorem eq_of_draft
    (drafted : reading.draft path = .ok draft) :
    draft.definitions = reading.definitions.map (fun entry => (entry.1, Value.text entry.2)) ∧
      reading.recipesOf reading.sketches = .ok draft.recipes ∧
      draft.default = (reading.sketches.map Sketch.name).head? := by
  rcases draft_eq_ok_iff.mp drafted with ⟨_, made, definitions, default, _⟩
  refine ⟨definitions, made, ?_⟩
  rw [default, ← names_of_recipesOf made, List.head?_map]

/-- A name that no recipe of the justfile has is not what an alias stands for. -/
theorem aliasesOf_eq_nil
    {name : String}
    (targeted : ∀ written ∈ reading.aliases,
      written.target ∈ reading.sketches.map Sketch.name)
    (unknown : name ∉ reading.sketches.map Sketch.name) :
    reading.aliasesOf name = [] := by
  rw [aliasesOf, List.map_eq_nil_iff, List.filter_eq_nil_iff]
  intro written member stands
  rw [beq_iff_eq] at stands
  exact unknown (stands ▸ targeted written member)

end Reading

/-! ## Books -/

/-- A book is made from the draft of what is known after the last line. -/
theorem exists_draft_of_book
    (made : Justfile.book text path = .ok book) :
    ∃ reading draft, read text = .ok reading ∧ reading.draft path = .ok draft ∧
      draft.book = .ok book := by
  unfold Justfile.book at made
  split at made
  · cases made
  · rename_i reading known
    split at made
    · cases made
    · rename_i draft drafted
      exact ⟨reading, draft, known, drafted, made⟩

theorem entries_of_draft
    (drafted : reading.draft path = .ok draft)
    (made : draft.book = .ok book) :
    book.bindings.entries = reading.definitions := by
  rw [(Draft.book_eq_ok_iff.mp made).2.1, (Reading.eq_of_draft drafted).1, List.map_map]
  exact List.map_id _

theorem names_of_draft
    (drafted : reading.draft path = .ok draft)
    (made : draft.book = .ok book) :
    book.catalog.names = reading.sketches.map Sketch.name := by
  rw [Catalog.names, (Draft.book_eq_ok_iff.mp made).1,
    Reading.names_of_recipesOf (Reading.draft_eq_ok_iff.mp drafted).2.1]

end Cookbook.Justfile
