import Cookbook.Proofs.Chain.Position
import Cookbook.Proofs.Justfile.Known
import Cookbook.Proofs.Justfile.Steps

/-!
# What can come of a justfile

Any text may be given as a justfile.  It is either refused, for a line that it
has or for a key that two of its recipes claim, or it describes a book whose
names are names, whose keys and variables are distinct, whose default recipe is
the first one of the file, and whose steps are single commands.
-/

namespace Cookbook.Justfile

variable
    {count : Nat}
    {reading : Reading}
    {fault : Fault}

/-! ## Faults in bodies -/

section Bodies

variable
    {quiet : Bool}
    {counted : Nat → Prop}
    {unfinished : Option Numbered}
    {body : List Numbered}

theorem number_of_after
    {line : Numbered}
    (front : ∀ front ∈ unfinished, counted front.number)
    (numbered : counted line.number) :
    counted (line.after unfinished).number := by
  cases unfinished with
  | none => exact numbered
  | some unfinished => exact front unfinished rfl

/-- Merged lines keep numbers of the lines they are merged from, and so do their faults. -/
theorem numbers_of_mergeFrom
    (front : ∀ front ∈ unfinished, counted front.number)
    (numbered : ∀ line ∈ body, counted line.number) :
    (∀ merged, mergeFrom unfinished body = .ok merged →
        ∀ line ∈ merged, counted line.number) ∧
      ∀ fault, mergeFrom unfinished body = .error fault → counted fault.number := by
  -- an unfinished line keeps its own number however far it goes on
  induction body generalizing unfinished with
  | nil =>
    cases unfinished with
    | none =>
      constructor
      · rintro merged ⟨⟩
        exact List.forall_mem_nil _
      · rintro fault ⟨⟩
    | some unfinished =>
      constructor
      · rintro merged ⟨⟩
      · rintro fault ⟨⟩
        exact front unfinished rfl
  | cons line rest ih =>
    rcases List.forall_mem_cons.mp numbered with ⟨first, others⟩
    have own := number_of_after front first
    simp only [mergeFrom]
    split
    · refine ih ?_ others
      rintro _ ⟨⟩
      exact own
    · rcases @ih none (by rintro _ ⟨⟩) others with ⟨taken, refused⟩
      constructor
      · intro merged whole
        rcases exists_of_map_eq_ok whole with ⟨later, inner, rfl⟩
        exact List.forall_mem_cons.mpr ⟨own, taken later inner⟩
      · intro fault stopped
        exact refused fault (eq_error_of_map_eq_error stopped)

/-- A body is refused at one of its lines. -/
theorem number_of_stepsOfBody
    (numbered : ∀ line ∈ body, counted line.number)
    (stopped : stepsOfBody quiet body = .error fault) :
    counted fault.number := by
  have nothing : ∀ front ∈ (none : Option Numbered), counted front.number := by
    rintro _ ⟨⟩
  rcases numbers_of_mergeFrom nothing numbered with ⟨taken, refused⟩
  unfold stepsOfBody at stopped
  split at stopped
  · rename_i broken
    cases stopped
    exact refused fault broken
  · rename_i merged whole
    rcases exists_of_stepsOfLines stopped with ⟨line, member, problem, _, rfl⟩
    exact taken merged whole line member

end Bodies

/-! ## Drafts -/

/-- A recipe whose own names and whose needs are names. -/
structure WellNamed (recipe : Recipe) : Prop where
  name : IsName recipe.name
  aliases : ∀ nickname ∈ recipe.aliases, IsName nickname
  needs : ∀ need ∈ recipe.needs, IsName need

namespace Reading

variable
    {sketches : List Sketch}
    {recipes : List Recipe}
    {path : String}
    {draft : Draft}

/-- A draft is refused at one of the lines that were read. -/
theorem Sound.number_of_draft
    (sound : reading.Sound count)
    (stopped : reading.draft path = .error fault) :
    Counted count fault.number := by
  unfold Reading.draft at stopped
  split at stopped
  · rename_i written dangling
    cases stopped
    exact (sound.aliased written (List.mem_of_find?_eq_some dangling)).2
  · split at stopped
    · rename_i broken
      cases stopped
      rcases exists_of_recipesOf broken with ⟨sketch, member, unmade⟩
      exact number_of_stepsOfBody (sound.sketched sketch member).numbered unmade
    · cases stopped

theorem Sound.isName_of_mem_aliasesOf
    {name nickname : String}
    (sound : reading.Sound count)
    (member : nickname ∈ reading.aliasesOf name) :
    IsName nickname := by
  rcases List.mem_map.mp member with ⟨written, kept, rfl⟩
  exact (sound.aliased written (List.mem_filter.mp kept).1).1

theorem Sound.wellNamed_of_recipesOf
    (sound : reading.Sound count)
    (sketched : ∀ sketch ∈ sketches, sketch.Sound count)
    (made : reading.recipesOf sketches = .ok recipes) :
    ∀ recipe ∈ recipes, WellNamed recipe := by
  induction sketches generalizing recipes with
  | nil =>
    cases made
    exact List.forall_mem_nil _
  | cons sketch rest ih =>
    rcases List.forall_mem_cons.mp sketched with ⟨first, others⟩
    rw [recipesOf] at made
    split at made
    · cases made
    · rcases exists_of_map_eq_ok made with ⟨later, inner, rfl⟩
      refine List.forall_mem_cons.mpr ⟨?_, ih others inner⟩
      constructor
      case name => exact first.named
      case needs => exact first.needed
      case aliases =>
        intro nickname member
        split at member
        · cases member
        · exact sound.isName_of_mem_aliasesOf member

end Reading

/-! ## Books -/

/-- Recipes are refused only for a key that is taken. -/
theorem nameTaken_of_insertAll
    {catalog : Catalog}
    {recipes : List Recipe}
    {failure : Failure}
    (refused : catalog.insertAll recipes = .error failure) :
    ∃ name holder, failure = .nameTaken name holder := by
  induction recipes generalizing catalog with
  | nil => cases refused
  | cons recipe rest ih =>
    rw [Catalog.insertAll] at refused
    split at refused
    · exact ih refused
    · rename_i stopped
      cases refused
      unfold Catalog.insert at stopped
      split at stopped
      · rename_i key holder _
        cases stopped
        exact ⟨key, holder, rfl⟩
      · cases stopped

/-- A draft without a variable twice is refused only for a key that is taken. -/
theorem nameTaken_of_book
    {draft : Draft}
    {failure : Failure}
    (distinct : (draft.definitions.map Prod.fst).Nodup)
    (refused : draft.book = .error failure) :
    ∃ name holder, failure = .nameTaken name holder := by
  unfold Draft.book at refused
  split at refused
  · rename_i stopped
    cases refused
    exact nameTaken_of_insertAll stopped
  · split at refused
    · rename_i stopped
      have same : (draft.definitions.map fun entry => (entry.1, entry.2.written)).map Prod.fst =
          draft.definitions.map Prod.fst := by
        rw [List.map_map]
        rfl
      have defined : Bindings.ofList draft.definitions =
          .ok ⟨draft.definitions.map fun entry => (entry.1, entry.2.written),
            same.symm ▸ distinct⟩ :=
        Bindings.defineAll_eq_ok_iff.mpr rfl
      rw [defined] at stopped
      cases stopped
    · cases refused

/-- A step whose line is one command: it is not empty, not cut, and shows no operator. -/
structure Whole (step : Step) : Prop where
  content : step.line ≠ ""
  uncut : Chain.segments step.line = .ok [step.line]
  clean : ∀ i letter, step.line.toList[i]? = some letter → Chain.isOperator letter = true →
    ¬Chain.Exposed .bare step.line.toList i

theorem whole_of_single
    {step : Step}
    (single : Chain.Single step.line) :
    Whole step := by
  constructor
  case content =>
    intro empty
    apply single.firm.ne_nil
    rw [empty]
    rfl
  case uncut => exact single.segments
  case clean => exact fun i letter present operates => single.guarded.not_exposed present operates

/-- What holds of a book that the given lines describe. -/
structure Proper (lines : List (List Char)) (book : Book) : Prop where
  recipes : book.catalog.names = headersIn lines
  default : book.default = (headersIn lines).head?
  named : ∀ recipe ∈ book.catalog.recipes, WellNamed recipe
  keys : book.catalog.keys.Nodup
  bound : ∀ name ∈ book.bindings.names, IsName name
  distinct : book.bindings.names.Nodup
  steps : ∀ recipe ∈ book.catalog.recipes, ∀ step ∈ recipe.steps, Whole step

/-- What may come of a text that is given as the justfile at a path. -/
inductive Controlled (text path : String) : Except Failure Book → Prop
  | described {book : Book}
      (proper : Proper (Text.lines text.toList) book) :
      Controlled text path (.ok book)
  | refused {number : Nat} {problem : LineProblem}
      (first : 1 ≤ number)
      (last : number ≤ (Text.lines text.toList).length) :
      Controlled text path (.error (.badJustfile path number problem))
  | taken {name holder : String} :
      Controlled text path (.error (.nameTaken name holder))

theorem sound_of_read
    {text : String}
    (known : read text = .ok reading) :
    reading.Sound (Text.lines text.toList).length := by
  have whole := Reading.sound_start.continueFrom known
  rw [Nat.zero_add] at whole
  exact whole

/-- The book of a sound draft is proper. -/
theorem proper_of_draft
    {text path : String}
    {draft : Draft}
    {book : Book}
    (known : read text = .ok reading)
    (drafted : reading.draft path = .ok draft)
    (made : draft.book = .ok book) :
    Proper (Text.lines text.toList) book := by
  have sound := sound_of_read known
  have headed : reading.sketches.map Sketch.name = headersIn (Text.lines text.toList) :=
    Reading.names_continueFrom known
  rcases Reading.eq_of_draft drafted with ⟨definitions, recipes, default⟩
  rcases Draft.book_eq_ok_iff.mp made with ⟨held, entries, stated, _⟩
  have same : book.bindings.names = reading.definitions.map Prod.fst := by
    rw [Bindings.names, entries, definitions, List.map_map, List.map_map]
    rfl
  constructor
  case recipes => rw [Catalog.names, held, Reading.names_of_recipesOf recipes, headed]
  case default => rw [stated, default, headed]
  case named =>
    rw [held]
    exact sound.wellNamed_of_recipesOf sound.sketched recipes
  case keys => exact book.catalog.distinct
  case bound =>
    rw [same]
    exact List.forall_mem_map.mpr sound.defined
  case distinct => exact book.bindings.distinct
  case steps =>
    intro recipe present step member
    rw [held] at present
    exact whole_of_single (Reading.single_of_draft drafted present member)

/--
Every text has a controlled outcome: a proper book, a fault of the justfile at
one of its lines, or a key that is taken.  The first field of a line, which
tells whether the line is supported at all, is never missing where it is read.
-/
theorem outcome_controlled
    (text path : String) :
    (∀ line ∈ Text.lines text.toList,
      Text.trimRight line ≠ [] → Text.fields (Text.trimRight line) ≠ []) ∧
    Controlled text path (Justfile.book text path) := by
  refine ⟨fun line _ => fields_trimRight_ne_nil, ?_⟩
  unfold Justfile.book
  split
  · rename_i fault stopped
    rcases Reading.number_of_continueFrom stopped with ⟨first, last⟩
    exact .refused first (by omega)
  · rename_i reading known
    split
    · rename_i fault stopped
      rcases (sound_of_read known).number_of_draft stopped with ⟨first, last⟩
      exact .refused first last
    · rename_i draft drafted
      cases made : draft.book with
      | ok book => exact .described (proper_of_draft known drafted made)
      | error failure =>
        have distinct : (draft.definitions.map Prod.fst).Nodup := by
          rw [(Reading.eq_of_draft drafted).1, List.map_map]
          exact (sound_of_read known).distinct
        rcases nameTaken_of_book distinct made with ⟨name, holder, rfl⟩
        exact .taken

end Cookbook.Justfile
