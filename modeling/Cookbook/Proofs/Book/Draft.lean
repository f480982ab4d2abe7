import Cookbook.Book.Draft
import Cookbook.Proofs.Catalog.Insert

/-!
# Books of drafts

A draft makes a book exactly if no key is claimed and no variable defined
twice, and the book says what the draft says.
-/

namespace Cookbook

namespace Bindings

variable
    {bindings extended : Bindings}
    {name value : String}
    {definitions : List (String × String)}

theorem eq_of_entries_eq
    (same : bindings.entries = extended.entries) :
    bindings = extended := by
  cases bindings
  cases extended
  cases same
  rfl

/-- A variable has the value that it is defined with, since none is defined twice. -/
theorem value?_of_mem
    (member : (name, value) ∈ bindings.entries) :
    bindings.value? name = some value := by
  rcases List.append_of_mem member with ⟨front, back, whole⟩
  have distinct := bindings.distinct
  rw [whole, List.map_append] at distinct
  refine List.lookup_eq_some_iff.mpr ⟨front, back, whole, ?_⟩
  intro earlier ahead
  rw [bne_iff_ne]
  exact ((List.nodup_append.mp distinct).2.2 _ (List.mem_map_of_mem ahead) _
    List.mem_cons_self).symm

theorem define_eq_ok_iff :
    bindings.define name value = .ok extended ↔
      extended.entries = bindings.entries ++ [(name, value)] := by
  constructor
  · intro defined
    unfold define at defined
    split at defined
    · cases defined
      rfl
    · cases defined
  · intro same
    have distinct := extended.distinct
    rw [same, List.map_append] at distinct
    have fresh : name ∉ bindings.names := fun known =>
      (List.nodup_append.mp distinct).2.2 name known name List.mem_cons_self rfl
    unfold define
    rw [dif_pos fresh]
    exact congrArg Except.ok (eq_of_entries_eq same.symm)

theorem defineAll_eq_ok_iff :
    bindings.defineAll definitions = .ok extended ↔
      extended.entries = bindings.entries ++ definitions := by
  induction definitions generalizing bindings with
  | nil =>
    rw [defineAll, List.append_nil, Except.ok.injEq]
    constructor
    · rintro rfl
      rfl
    · intro same
      exact eq_of_entries_eq same.symm
  | cons definition rest ih =>
    rcases definition with ⟨name, value⟩
    rw [defineAll]
    constructor
    · intro accepted
      split at accepted
      · rename_i next defined
        rw [ih.mp accepted, define_eq_ok_iff.mp defined, List.append_assoc]
        rfl
      · cases accepted
    · intro same
      have between : ((bindings.entries ++ [(name, value)]).map Prod.fst).Nodup := by
        have distinct := extended.distinct
        rw [same, List.append_cons, List.map_append] at distinct
        exact (List.nodup_append.mp distinct).1
      have defined : bindings.define name value =
          .ok ⟨bindings.entries ++ [(name, value)], between⟩ :=
        define_eq_ok_iff.mpr rfl
      rw [defined]
      apply ih.mpr
      rw [same, List.append_cons]

end Bindings

/-- A draft makes the book that says the same, if there is one. -/
theorem Draft.book_eq_ok_iff
    {draft : Draft}
    {book : Book} :
    draft.book = .ok book ↔
      book.catalog.recipes = draft.recipes ∧
        book.bindings.entries =
          draft.definitions.map (fun entry => (entry.1, entry.2.written)) ∧
        book.default = draft.default ∧ book.source = draft.source := by
  constructor
  · intro made
    unfold Draft.book at made
    split at made
    · cases made
    · rename_i catalog accepted
      split at made
      · cases made
      · rename_i bindings defined
        cases made
        exact ⟨Catalog.ofList_eq_ok_iff.mp accepted, Bindings.defineAll_eq_ok_iff.mp defined,
          rfl, rfl⟩
  · rintro ⟨recipes, entries, default, source⟩
    rcases book with ⟨bindings, catalog, _, _⟩
    cases default
    cases source
    have accepted : Catalog.ofList draft.recipes = .ok catalog :=
      Catalog.ofList_eq_ok_iff.mpr recipes
    have defined : Bindings.ofList draft.definitions = .ok bindings :=
      Bindings.defineAll_eq_ok_iff.mpr entries
    unfold Draft.book
    rw [accepted, defined]

end Cookbook
