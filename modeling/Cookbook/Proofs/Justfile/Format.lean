import Cookbook.Proofs.Book.Draft
import Cookbook.Proofs.Justfile.Reading
import Mathlib.Data.List.Nodup

/-!
# The format of justfiles

A justfile that is written from items is read as the book that the items mean:
their variables and their recipes in order, each recipe with its needs, its
aliases, the steps of its command lines, and the comment right in front of it.
-/

namespace Cookbook.Justfile

variable
    {number : Nat}
    {doc : Option String}
    {nicknames : String → List String}
    {item : Item}
    {items : List Item}
    {reading : Reading}

/-! ## The recipes of items -/

theorem map_name_recipesFrom :
    (recipesFrom nicknames doc items).map Recipe.name = recipeNames items := by
  induction items generalizing doc with
  | nil => rfl
  | cons item rest ih =>
    rw [recipesFrom, List.map_append, ih, recipeNames, recipeNames, List.filterMap_cons]
    cases item <;> rfl

theorem aliases_of_mem_recipesFrom
    {recipe : Recipe}
    (member : recipe ∈ recipesFrom nicknames doc items) :
    recipe.aliases = nicknames recipe.name := by
  induction items generalizing doc with
  | nil => cases member
  | cons item rest ih =>
    rcases List.mem_append.mp member with now | later
    · cases item with
      | recipe quiet name needs body =>
        cases List.mem_singleton.mp now
        rfl
      | _ => cases now
    · exact ih later

theorem mem_nicknamesOf_iff
    {key target : String} :
    key ∈ nicknamesOf items target ↔ (key, target) ∈ nicknamesIn items := by
  simp [nicknamesOf]

theorem name_mem_recipeNames
    {recipe : Recipe}
    (member : recipe ∈ recipesIn items) :
    recipe.name ∈ recipeNames items := by
  rw [← map_name_recipesFrom]
  exact List.mem_map_of_mem member

/-! ## The keys of items -/

section Keys

variable
    {recipe : Recipe}
    {key target : String}
    (keys : (recipeNames items ++ (nicknamesIn items).map Prod.fst).Nodup)

include keys

theorem ne_name_of_nickname
    (member : recipe ∈ recipesIn items)
    (given : (key, target) ∈ nicknamesIn items) :
    key ≠ recipe.name := by
  rintro rfl
  exact (List.nodup_append.mp keys).2.2 _ (name_mem_recipeNames member) _
    (List.mem_map_of_mem given) rfl

theorem target_unique
    {other : String}
    (given : (key, target) ∈ nicknamesIn items)
    (again : (key, other) ∈ nicknamesIn items) :
    target = other :=
  congrArg Prod.snd (List.inj_on_of_nodup_map (List.nodup_append.mp keys).2.1 given again rfl)

theorem nodup_keys_of_mem_recipesIn
    (member : recipe ∈ recipesIn items) :
    recipe.keys.Nodup := by
  have own := aliases_of_mem_recipesFrom member
  refine List.nodup_cons.mpr ⟨?_, ?_⟩
  · rw [own, mem_nicknamesOf_iff]
    intro given
    exact ne_name_of_nickname keys member given rfl
  · rw [own]
    exact (List.nodup_append.mp keys).2.1.sublist (List.filter_sublist.map Prod.fst)

theorem name_eq_of_mem_keys
    {other : Recipe}
    (member : recipe ∈ recipesIn items)
    (otherMember : other ∈ recipesIn items)
    (held : key ∈ recipe.keys)
    (again : key ∈ other.keys) :
    recipe.name = other.name := by
  have own := aliases_of_mem_recipesFrom member
  have others := aliases_of_mem_recipesFrom otherMember
  rcases List.mem_cons.mp held with rfl | given
  · rcases List.mem_cons.mp again with same | taken
    · exact same
    · rw [others, mem_nicknamesOf_iff] at taken
      exact absurd rfl (ne_name_of_nickname keys member taken)
  · rw [own, mem_nicknamesOf_iff] at given
    rcases List.mem_cons.mp again with same | taken
    · exact absurd same (ne_name_of_nickname keys otherMember given)
    · rw [others, mem_nicknamesOf_iff] at taken
      exact target_unique keys given taken

/-- Keys that are given once by the items belong to one recipe each. -/
theorem nodup_keys_recipesIn :
    ((recipesIn items).flatMap Recipe.keys).Nodup := by
  refine List.nodup_flatMap.mpr ⟨fun recipe => nodup_keys_of_mem_recipesIn keys, ?_⟩
  have different : (recipesIn items).Pairwise fun recipe other => recipe.name ≠ other.name := by
    rw [← List.pairwise_map, recipesIn, map_name_recipesFrom]
    exact (List.nodup_append.mp keys).1
  apply different.imp_of_mem
  intro recipe other member otherMember differ key held again
  exact differ (name_eq_of_mem_keys keys member otherMember held again)

end Keys

/-! ## From what is read to recipes -/

theorem map_aliasLinesFrom :
    (aliasLinesFrom number items).map (fun line => (line.name, line.target)) =
      nicknamesIn items := by
  induction items generalizing number with
  | nil => rfl
  | cons item rest ih =>
    rw [aliasLinesFrom, List.map_append, ih, nicknamesIn, nicknamesIn, List.filterMap_cons]
    cases item <;> rfl

theorem map_name_sketchesFrom :
    (sketchesFrom number doc items).map Sketch.name = recipeNames items := by
  induction items generalizing number doc with
  | nil => rfl
  | cons item rest ih =>
    rw [sketchesFrom, List.map_append, ih, recipeNames, recipeNames, List.filterMap_cons]
    cases item <;> rfl

theorem aliasesOf_eq
    (aliases : reading.aliases = aliasLinesFrom number items)
    (target : String) :
    reading.aliasesOf target = nicknamesOf items target := by
  rw [Reading.aliasesOf, nicknamesOf, aliases, ← @map_aliasLinesFrom number, List.filter_map,
    List.map_map]
  rfl

/-- Every alias stands for a recipe. -/
theorem danglingAlias?_eq_none
    (aliases : reading.aliases = aliasLinesFrom number items)
    (sketches : reading.sketches = sketchesFrom number doc items)
    (targets : ∀ nickname ∈ nicknamesIn items, nickname.2 ∈ recipeNames items) :
    reading.danglingAlias? = none := by
  rw [Reading.danglingAlias?, sketches, map_name_sketchesFrom, List.find?_eq_none, aliases]
  intro written member
  have given : (written.name, written.target) ∈ nicknamesIn items := by
    rw [← @map_aliasLinesFrom number]
    exact List.mem_map_of_mem member
  have known : written.target ∈ recipeNames items := targets _ given
  simpa using known

/-- The recipes that are read are those of the items. -/
theorem recipesOf_sketchesFrom
    (sound : ∀ item ∈ items, item.Sound)
    (distinct : (recipeNames items).Nodup) :
    reading.recipesOf (sketchesFrom number doc items) =
      .ok (recipesFrom reading.aliasesOf doc items) := by
  induction items generalizing number doc with
  | nil => rfl
  | cons item rest ih =>
    rcases List.forall_mem_cons.mp sound with ⟨first, others⟩
    cases first with
    | @recipe quiet name needs body named needed commands =>
      rcases List.nodup_cons.mp distinct with ⟨once, later⟩
      have inner := @ih (number + (Item.recipe quiet name needs body).written.length) none others
        later
      have last : ((sketchesFrom (number + (Item.recipe quiet name needs body).written.length) none
          rest).map Sketch.name).contains name = false := by
        rw [map_name_sketchesFrom, List.contains_eq_mem, decide_eq_false_iff_not]
        exact once
      show reading.recipesOf (Sketch.mk name needs quiet doc _ :: sketchesFrom _ none rest) = _
      simp only [Reading.recipesOf, stepsOfBody_written commands, last, inner]
      rfl
    | blank => exact ih others distinct
    | comment => exact ih others distinct
    | definition => exact ih others distinct
    | nickname => exact ih others distinct

/-! ## Whole justfiles -/

/-- The lines of a written justfile are read as its items. -/
theorem exists_read_textOf
    (wellFormed : WellFormed items) :
    ∃ reading, read (textOf items) = .ok reading ∧ Reads items 1 .start reading := by
  have unbroken : ∀ line ∈ items.flatMap Item.written, Text.Unbroken line := by
    intro line member
    rcases List.mem_flatMap.mp member with ⟨item, present, inside⟩
    exact (wellFormed.sound item present).unbroken line inside
  rw [read, textOf, String.toList_ofList, Text.lines_flatMap unbroken]
  exact exists_reads wellFormed.sound (Reading.settled_of_closed rfl) wellFormed.definitions

theorem draft_of_reads
    (wellFormed : WellFormed items)
    (reads : Reads items 1 .start reading)
    (path : String) :
    reading.draft path =
      .ok
        { definitions := (definitionsIn items).map fun entry => (entry.1, Value.text entry.2)
          recipes := recipesIn items
          default := (recipeNames items).head?
          source := path } := by
  have definitions : reading.definitions = definitionsIn items := reads.definitions
  have aliases : reading.aliases = aliasLinesFrom 1 items := reads.aliases
  have sketches : reading.sketches = sketchesFrom 1 none items := reads.sketches
  have distinct := (List.nodup_append.mp wellFormed.keys).1
  have recipes : reading.recipesOf reading.sketches = .ok (recipesIn items) := by
    rw [sketches, recipesOf_sketchesFrom wellFormed.sound distinct, funext (aliasesOf_eq aliases)]
    rfl
  have first : (recipesIn items).head?.map Recipe.name = (recipeNames items).head? := by
    rw [← List.head?_map, recipesIn, map_name_recipesFrom]
  simp only [Reading.draft, danglingAlias?_eq_none aliases sketches wellFormed.targets, recipes,
    definitions, first]

/--
A justfile that is written from well-formed items is read as their book: the
variables and recipes of the items in order, the first recipe as the default,
and the given path as the source.
-/
theorem written_items_read
    (items : List Item)
    (wellFormed : WellFormed items)
    (path : String) :
    ∃ book, Justfile.book (textOf items) path = .ok book ∧
      book.bindings.entries = definitionsIn items ∧
      book.catalog.recipes = recipesIn items ∧
      book.default = (recipeNames items).head? ∧
      book.source = path := by
  rcases exists_read_textOf wellFormed with ⟨reading, understood, reads⟩
  let book : Book :=
    { bindings := ⟨definitionsIn items, wellFormed.definitions⟩
      catalog := ⟨recipesIn items, nodup_keys_recipesIn wellFormed.keys⟩
      default := (recipeNames items).head?
      source := path }
  refine ⟨book, ?_, rfl, rfl, rfl, rfl⟩
  simp only [Justfile.book, understood, draft_of_reads wellFormed reads]
  apply Draft.book_eq_ok_iff.mpr
  refine ⟨rfl, ?_, rfl, rfl⟩
  simp [book, Value.written, Function.comp_def]

/-- A recipe with a comment, a need behind it and an alias, and a value with every kind of escape. -/
theorem written_items_read_forwards :
    let items : List Item :=
      [ .comment "Build it",
        .recipe false "build" ["clean"]
          [⟨"    ", false, "cd sub && make"⟩, ⟨"\t", true, "echo ok"⟩],
        .nickname "b" "build",
        .blank,
        .definition "text" "\t\"a\\b\"\r\n",
        .recipe true "clean" [] [] ]
    WellFormed items ∧
      ∃ book, Justfile.book (textOf items) "justfile" = .ok book ∧
        book.bindings.entries = [("text", "\t\"a\\b\"\r\n")] ∧
        book.catalog.recipes =
          [ ⟨"build",
              [⟨"cd sub", none, false⟩, ⟨"make", some "sub", false⟩, ⟨"echo ok", none, true⟩],
              ["clean"], ["b"], some "Build it"⟩,
            ⟨"clean", [], [], [], none⟩ ] ∧
        book.default = some "build" ∧
        book.source = "justfile" := by
  intro items
  have change : Command.Sound ⟨"    ", false, "cd sub && make"⟩ := by
    refine ⟨by decide, by simp, by decide, ?_, ?_, ⟨_, rfl⟩⟩
    · rintro letter ⟨⟩
      decide
    · rintro letter ⟨⟩
      decide
  have echo : Command.Sound ⟨"\t", true, "echo ok"⟩ := by
    refine ⟨by decide, by simp, by decide, ?_, ?_, ⟨_, rfl⟩⟩
    · rintro letter ⟨⟩
      decide
    · rintro letter ⟨⟩
      decide
  have sound : ∀ item ∈ items, item.Sound := by
    simp only [items, List.forall_mem_cons]
    refine ⟨.comment (by decide), .recipe rfl ?_ ?_, .nickname rfl rfl, .blank,
      .definition rfl (by decide) ?_, .recipe rfl ?_ ?_, List.forall_mem_nil _⟩
    · exact List.forall_mem_singleton.mpr rfl
    · exact List.forall_mem_cons.mpr ⟨change, List.forall_mem_singleton.mpr echo⟩
    · simp [Text.isLineBreak]
    · exact List.forall_mem_nil _
    · exact List.forall_mem_nil _
  have wellFormed : WellFormed items := ⟨sound, by decide, by decide, by decide⟩
  have recipes : recipesIn items =
      [ ⟨"build",
          [⟨"cd sub", none, false⟩, ⟨"make", some "sub", false⟩, ⟨"echo ok", none, true⟩],
          ["clean"], ["b"], some "Build it"⟩,
        ⟨"clean", [], [], [], none⟩ ] := by
    decide
  rcases written_items_read items wellFormed "justfile" with ⟨book, read, meant⟩
  rw [recipes] at meant
  exact ⟨wellFormed, book, read, meant⟩

end Cookbook.Justfile
