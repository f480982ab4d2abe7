import Cookbook.Proofs.Catalog.Lookup
import Cookbook.Proofs.Justfile.Definition
import Cookbook.Proofs.Justfile.Erased
import Cookbook.Proofs.Justfile.Reading
import Cookbook.Proofs.Text.Line

/-!
# One justfile behind another

Behind an empty line, a justfile is read as if nothing stood in front of it:
the comment that was pending is forgotten, and the body that is still open
takes up no line of it.  So two justfiles with an empty line between them
describe the variables and recipes of both, if they claim different ones.
-/

namespace Cookbook.Justfile

namespace Reading

variable
    {number : Nat}
    {line : Numbered}
    {lines : List (List Char)}
    {front reading later : Reading}

/-! ## Open bodies -/

/-- One more line leaves no comment pending behind an open body. -/
theorem Settled.next
    (settled : reading.Settled)
    (moved : reading.next line = .ok later) :
    later.Settled := by
  have moves := moves_of_next moved
  generalize Line.read line.text = kind at moves
  cases moves with
  | blank =>
    unfold skip
    split
    · rename_i closed
      exact settled_of_closed closed
    · exact settled
  | indented opened => exact fun _ => settled (opened ▸ Option.some_ne_none _)
  | comment => exact settled_of_closed rfl
  | nickname => exact settled_of_closed rfl
  | definition _ _ => exact settled_of_closed rfl
  | header _ => exact fun _ => rfl

theorem Settled.continueFrom
    (settled : reading.Settled)
    (known : reading.continueFrom number lines = .ok later) :
    later.Settled := by
  induction lines generalizing reading number with
  | nil =>
    cases known
    exact settled
  | cons line rest ih =>
    rw [Reading.continueFrom] at known
    split at known
    · cases known
    · rename_i next moved
      exact ih (settled.next moved) known

/-- Behind an empty line no comment is pending. -/
theorem Settled.doc_skip
    (settled : reading.Settled) :
    reading.skip.doc = none := by
  unfold skip
  split
  · rfl
  · rename_i sketch opened
    exact settled (opened ▸ Option.some_ne_none sketch)

theorem skip_eq_self
    (silent : reading.doc = none) :
    reading.skip = reading := by
  rcases reading with ⟨_, _, _, current, _⟩
  cases silent
  cases current with
  | none => rfl
  | some sketch => rfl

theorem next_blank
    (reading : Reading)
    (number : Nat) :
    reading.next ⟨number, Text.trimRight []⟩ = .ok reading.skip :=
  rfl

/-- Further empty lines say no more than the first one. -/
theorem continueFrom_blanks
    (settled : reading.Settled)
    (count : Nat) :
    reading.continueFrom number (List.replicate (count + 1) []) = .ok reading.skip := by
  induction count generalizing reading number with
  | zero => rfl
  | succ count ih =>
    have silent := settled.doc_skip
    rw [List.replicate_succ, continueFrom_cons (next_blank reading number),
      ih (fun _ => silent), skip_eq_self silent]

/-! ## What stands in front -/

/-- What is known of further lines behind what is known of the lines in front of them. -/
def followedBy (front reading : Reading) : Reading :=
  { definitions := front.definitions ++ reading.definitions
    aliases := front.aliases ++ reading.aliases
    complete := front.sketches ++ reading.complete
    current := reading.current
    doc := reading.doc }

theorem sketches_followedBy
    (front reading : Reading) :
    (front.followedBy reading).sketches = front.sketches ++ reading.sketches :=
  List.append_assoc ..

theorem close_followedBy
    (front reading : Reading) :
    (front.followedBy reading).close = front.followedBy reading.close := by
  rw [close, sketches_followedBy]
  rfl

theorem close_close
    (reading : Reading) :
    reading.close.close = reading.close := by
  rw [close, sketches_close]
  rfl

theorem followedBy_start
    (front : Reading) :
    front.followedBy start = front.close := by
  simp [followedBy, start, close]

theorem followedBy_skip
    (front reading : Reading) :
    front.skip.followedBy reading = front.followedBy reading := by
  rcases front with ⟨_, _, _, current, _⟩
  cases current with
  | none => rfl
  | some sketch => rfl

theorem followedBy_erased
    (front reading : Reading) :
    (front.followedBy reading).erased = front.erased.followedBy reading.erased := by
  simp only [followedBy, erased, List.map_append, ← sketches_erased]

theorem skip_followedBy
    (front reading : Reading) :
    (front.followedBy reading).skip = front.followedBy reading.skip := by
  rcases reading with ⟨_, _, _, current, _⟩
  cases current with
  | none => rfl
  | some sketch => rfl

theorem indent_followedBy :
    (front.followedBy reading).indent line = front.followedBy <$> reading.indent line := by
  rcases reading with ⟨_, _, _, current, _⟩
  cases current with
  | none => rfl
  | some sketch => rfl

theorem define_followedBy
    {name : String}
    (fresh : name ∉ front.definitions.map Prod.fst)
    (written : List Char) :
    (front.followedBy reading).define name written =
      front.followedBy <$> reading.define name written := by
  have known : ((front.followedBy reading).definitions.map Prod.fst).contains name =
      (reading.definitions.map Prod.fst).contains name := by
    have none : (front.definitions.map Prod.fst).contains name = false := by
      simpa using fresh
    rw [followedBy, List.map_append, List.contains_append, none, Bool.false_or]
  simp only [define, known, close_followedBy]
  split
  · rfl
  · cases decodeValue written with
    | error problem => rfl
    | ok content => simp [followedBy]

theorem openRecipe_followedBy
    (quiet : Bool)
    (name : String)
    (needs : List (List Char)) :
    (front.followedBy reading).openRecipe quiet name needs =
      front.followedBy <$> reading.openRecipe quiet name needs := by
  simp only [openRecipe, close_followedBy]
  cases needs.find? (!Identifier.isIdentifier ·) with
  | some need => rfl
  | none => rfl

/-- What stands in front does not matter to a line, unless the line defines a variable of it. -/
theorem next_followedBy
    (fresh : ∀ entry ∈ (Line.read line.text).defined?,
      entry.1 ∉ front.definitions.map Prod.fst) :
    (front.followedBy reading).next line = front.followedBy <$> reading.next line := by
  unfold next
  split
  case h_1 =>
    rw [skip_followedBy]
    rfl
  case h_2 => exact indent_followedBy
  case h_3 =>
    rw [close_followedBy]
    rfl
  case h_4 =>
    rw [close_followedBy]
    simp [followedBy]
  case h_5 name written read =>
    rw [read] at fresh
    exact define_followedBy (fresh _ rfl) written
  case h_6 quiet name needs _ => exact openRecipe_followedBy quiet name needs
  case h_7 => rfl

/-- What stands in front does not matter to lines that define no variable of it. -/
theorem continueFrom_followedBy
    (fresh : ∀ entry ∈ definedIn lines, entry.1 ∉ front.definitions.map Prod.fst) :
    (front.followedBy reading).continueFrom number lines =
      front.followedBy <$> reading.continueFrom number lines := by
  induction lines generalizing reading number with
  | nil => rfl
  | cons line rest ih =>
    rw [definedIn_cons, List.forall_mem_append] at fresh
    have here : ∀ entry ∈ (Line.read (Text.trimRight line)).defined?,
        entry.1 ∉ front.definitions.map Prod.fst :=
      fun entry defined => fresh.1 entry (Option.mem_toList.mpr defined)
    rw [continueFrom, continueFrom, @next_followedBy ⟨number, Text.trimRight line⟩ _ _ here]
    cases reading.next ⟨number, Text.trimRight line⟩ with
    | error problem => rfl
    | ok next => exact ih fresh.2

/-- A line that is neither empty nor indented ends an open body behind an empty line. -/
theorem next_close
    (silent : reading.doc = none)
    (filled : Line.read line.text ≠ .blank)
    (outer : Line.read line.text ≠ .indented) :
    reading.close.next line = reading.next line := by
  unfold next
  split
  case h_1 read => exact absurd read filled
  case h_2 read => exact absurd read outer
  case h_3 => rw [close_close]
  case h_4 =>
    rw [close_close]
    rfl
  case h_5 =>
    unfold define
    rw [close_close]
    rfl
  case h_6 =>
    unfold openRecipe
    rw [close_close, silent]
    rfl
  case h_7 => rfl

/-- Lines that can stand at the beginning are read behind an empty line as they are there. -/
theorem exists_continueFrom_of_start
    (silent : reading.doc = none)
    (fresh : ∀ entry ∈ definedIn lines, entry.1 ∉ reading.definitions.map Prod.fst)
    (known : start.continueFrom number lines = .ok later) :
    ∃ again, reading.continueFrom number lines = .ok again ∧
      again.close = (reading.followedBy later).close := by
  -- up to the first line that says something, both readers stay where they are
  induction lines generalizing number with
  | nil =>
    cases known
    refine ⟨reading, rfl, ?_⟩
    rw [followedBy_start, close_close]
  | cons line rest ih =>
    by_cases blank : Line.read (Text.trimRight line) = .blank
    · have waits : ∀ state : Reading, state.doc = none →
          state.next ⟨number, Text.trimRight line⟩ = .ok state := by
        intro state silent
        rw [next, blank]
        exact congrArg Except.ok (skip_eq_self silent)
      rw [continueFrom_cons (waits start rfl)] at known
      rw [definedIn_cons, List.forall_mem_append] at fresh
      rw [continueFrom_cons (waits reading silent)]
      exact ih fresh.2 known
    · have outer : Line.read (Text.trimRight line) ≠ .indented := by
        intro indented
        rw [continueFrom, next, indented] at known
        cases known
      refine ⟨reading.followedBy later, ?_, rfl⟩
      have closed : reading.continueFrom number (line :: rest) =
          reading.close.continueFrom number (line :: rest) := by
        rw [continueFrom, continueFrom, next_close silent blank outer]
      rw [closed, ← followedBy_start, continueFrom_followedBy fresh, known]
      rfl

/-! ## Drafts -/

theorem aliasesOf_followedBy
    (front reading : Reading)
    (name : String) :
    (front.followedBy reading).aliasesOf name =
      front.aliasesOf name ++ reading.aliasesOf name := by
  simp only [aliasesOf, followedBy, List.filter_append, List.map_append]

/-- The draft of a book has the open body in it already and no pending comment. -/
theorem draft_close
    (reading : Reading)
    (path : String) :
    reading.close.draft path = reading.draft path := by
  have same : reading.close.recipesOf reading.sketches = reading.recipesOf reading.sketches :=
    recipesOf_congr fun _ _ => rfl
  rw [draft, draft, danglingAlias?, danglingAlias?, sketches_close, same]
  rfl

/-- The draft of what is known behind something else says what both drafts say, in order. -/
theorem draft_followedBy
    {path : String}
    {draft behind : Draft}
    (first : front.draft path = .ok draft)
    (second : reading.draft path = .ok behind)
    (apart : List.Disjoint (front.sketches.map Sketch.name) (reading.sketches.map Sketch.name)) :
    (front.followedBy reading).draft path =
      .ok
        { definitions := draft.definitions ++ behind.definitions
          recipes := draft.recipes ++ behind.recipes
          default := draft.default.or behind.default
          source := path } := by
  rw [draft_eq_ok_iff] at first second ⊢
  rcases first with ⟨targeted, made, definitions, default, _⟩
  rcases second with ⟨aimed, more, further, fallback, _⟩
  rw [sketches_followedBy]
  refine ⟨?_, ?_, ?_, ?_, rfl⟩
  · rw [List.map_append]
    refine List.forall_mem_append.mpr ⟨fun written member => ?_, fun written member => ?_⟩
    · exact List.mem_append_left _ (targeted written member)
    · exact List.mem_append_right _ (aimed written member)
  · refine recipesOf_append apart ?_ ?_
    · rw [← made]
      refine recipesOf_congr fun sketch member => ?_
      have unknown := apart (List.mem_map_of_mem member)
      rw [aliasesOf_followedBy, aliasesOf_eq_nil aimed unknown, List.append_nil]
    · rw [← more]
      refine recipesOf_congr fun sketch member => ?_
      have unknown := fun known => apart known (List.mem_map_of_mem member)
      rw [aliasesOf_followedBy, aliasesOf_eq_nil targeted unknown, List.nil_append]
  · rw [definitions, further, followedBy, List.map_append]
  · rw [default, fallback, List.head?_append]
    cases draft.recipes.head? with
    | none => rfl
    | some recipe => rfl

end Reading

/-! ## Texts -/

variable
    {first second path : String}
    {number : Nat}
    {front reading : Reading}

/-- The variables of lines that are read from the start are those that they define. -/
theorem fst_mem_of_mem_definedIn
    {lines : List (List Char)}
    {entry : String × List Char}
    (known : Reading.start.continueFrom number lines = .ok reading)
    (member : entry ∈ definedIn lines) :
    entry.1 ∈ reading.definitions.map Prod.fst := by
  rcases Reading.definitions_continueFrom known with ⟨entries, added, valued⟩
  rcases exists_of_mem_of_forall₂ valued member with ⟨content, _, present⟩
  rw [added]
  exact List.mem_map_of_mem present

/-- The lines of a text, one or two empty lines, and the lines of another text. -/
theorem exists_lines_append
    (first second : String) :
    ∃ count, Text.lines (first ++ "\n\n" ++ second).toList =
      Text.lines first.toList ++
        (List.replicate (count + 1) [] ++ Text.lines second.toList) := by
  have whole : (first ++ "\n\n" ++ second).toList =
      first.toList ++ '\n' :: '\n' :: second.toList := by
    simp
  rcases Text.exists_lines_append_newline first.toList ('\n' :: second.toList) with
    ⟨count, split⟩
  refine ⟨count, ?_⟩
  rw [whole, split, Text.lines_newline, List.replicate_succ']
  simp

/-- What is known of a text and of another one behind an empty line adds up. -/
theorem exists_read_append
    (known : read first = .ok front)
    (more : read second = .ok reading)
    (fresh : List.Disjoint (front.definitions.map Prod.fst) (reading.definitions.map Prod.fst)) :
    ∃ whole, read (first ++ "\n\n" ++ second) = .ok whole ∧
      whole.close.erased = (front.followedBy reading).close.erased := by
  have settled : front.Settled :=
    Reading.Settled.continueFrom (Reading.settled_of_closed rfl) known
  rcases exists_lines_append first second with ⟨count, lines⟩
  -- the second text has other line numbers than it has alone
  rcases @Reading.exists_continueFrom_erased _ Reading.start _ _ _
      (1 + (Text.lines first.toList).length + (count + 1)) rfl more with ⟨moved, again, alike⟩
  have apart : ∀ entry ∈ definedIn (Text.lines second.toList),
      entry.1 ∉ front.skip.definitions.map Prod.fst := by
    intro entry member taken
    rw [Reading.definitions_skip] at taken
    exact fresh taken (fst_mem_of_mem_definedIn more member)
  rcases Reading.exists_continueFrom_of_start settled.doc_skip apart again with
    ⟨whole, read, closed⟩
  refine ⟨whole, ?_, ?_⟩
  · rw [Justfile.read, lines, continueFrom_append known,
      continueFrom_append (Reading.continueFrom_blanks settled count), List.length_replicate, read]
  · rw [closed, Reading.followedBy_skip, ← Reading.close_erased, ← Reading.close_erased,
      Reading.followedBy_erased, Reading.followedBy_erased, alike]

/--
A justfile behind another one and an empty line adds its variables and its
recipes to theirs and changes none of them, if it claims no name that is taken.
The default recipe is the first one of the first justfile that has any.
-/
theorem book_append
    {firstBook secondBook : Book}
    (described : Justfile.book first path = .ok firstBook)
    (behind : Justfile.book second path = .ok secondBook)
    (names : List.Disjoint firstBook.bindings.names secondBook.bindings.names)
    (keys : List.Disjoint firstBook.catalog.keys secondBook.catalog.keys) :
    ∃ book, Justfile.book (first ++ "\n\n" ++ second) path = .ok book ∧
      book.bindings.entries = firstBook.bindings.entries ++ secondBook.bindings.entries ∧
      book.catalog.recipes = firstBook.catalog.recipes ++ secondBook.catalog.recipes ∧
      book.default =
        (if firstBook.catalog.recipes = [] then secondBook.default else firstBook.default) ∧
      book.source = path := by
  rcases exists_draft_of_book described with ⟨front, draft, known, drafted, made⟩
  rcases exists_draft_of_book behind with ⟨reading, further, more, outlined, added⟩
  rcases Draft.book_eq_ok_iff.mp made with ⟨held, bound, stated, _⟩
  rcases Draft.book_eq_ok_iff.mp added with ⟨kept, defined, fallback, _⟩
  have entries := entries_of_draft drafted made
  have others := entries_of_draft outlined added
  have fresh : List.Disjoint (front.definitions.map Prod.fst)
      (reading.definitions.map Prod.fst) := by
    rw [← entries, ← others]
    exact names
  have apart : List.Disjoint (front.sketches.map Sketch.name)
      (reading.sketches.map Sketch.name) := by
    rw [← names_of_draft drafted made, ← names_of_draft outlined added]
    exact fun name taken again =>
      keys (Catalog.names_subset_keys _ taken) (Catalog.names_subset_keys _ again)
  rcases exists_read_append known more fresh with ⟨whole, read, alike⟩
  have combined := Reading.draft_followedBy drafted outlined apart
  rw [← Reading.draft_close] at combined
  have both := Reading.draft_of_erased_eq alike combined
  rw [Reading.draft_close] at both
  let book : Book :=
    { bindings := ⟨firstBook.bindings.entries ++ secondBook.bindings.entries, by
        rw [List.map_append]
        exact firstBook.bindings.distinct.append secondBook.bindings.distinct names⟩
      catalog := ⟨firstBook.catalog.recipes ++ secondBook.catalog.recipes, by
        rw [List.flatMap_append]
        exact firstBook.catalog.distinct.append secondBook.catalog.distinct keys⟩
      default := draft.default.or further.default
      source := path }
  refine ⟨book, ?_, rfl, rfl, ?_, rfl⟩
  · simp only [Justfile.book, read, both]
    refine Draft.book_eq_ok_iff.mpr ⟨?_, ?_, rfl, rfl⟩
    · rw [← held, ← kept]
    · rw [List.map_append, ← bound, ← defined]
  · have first := (Reading.draft_eq_ok_iff.mp drafted).2.2.2.1
    rw [stated, fallback, held]
    show draft.default.or further.default = _
    cases recipes : draft.recipes with
    | nil =>
      rw [recipes] at first
      rw [first, if_pos rfl]
      rfl
    | cons recipe rest =>
      rw [recipes] at first
      rw [first, if_neg (List.cons_ne_nil recipe rest)]
      rfl

/-- The first text ends in an open body, and the second begins with a comment for its recipe. -/
theorem book_append_open_body :
    ∃ book,
      Justfile.book
          ("x := 'a'\nhi: bye\n    echo {{x}} \\\n      again" ++ "\n\n" ++
            "# Leave\nbye:\n\t@exit 0\nalias b := bye\ny := \"\\t\"\n")
          "justfile" = .ok book ∧
        book.bindings.entries = [("x", "a"), ("y", "\t")] ∧
        book.catalog.recipes =
          [ ⟨"hi", [⟨"echo {{x}} again", none, false⟩], ["bye"], [], none⟩,
            ⟨"bye", [⟨"exit 0", none, true⟩], [], ["b"], some "Leave"⟩ ] ∧
        book.default = some "hi" ∧
        book.source = "justfile" := by
  let front : Book :=
    { bindings := ⟨[("x", "a")], by decide⟩
      catalog := ⟨[⟨"hi", [⟨"echo {{x}} again", none, false⟩], ["bye"], [], none⟩], by decide⟩
      default := some "hi"
      source := "justfile" }
  let behind : Book :=
    { bindings := ⟨[("y", "\t")], by decide⟩
      catalog := ⟨[⟨"bye", [⟨"exit 0", none, true⟩], [], ["b"], some "Leave"⟩], by decide⟩
      default := some "bye"
      source := "justfile" }
  have described :
      Justfile.book "x := 'a'\nhi: bye\n    echo {{x}} \\\n      again" "justfile" = .ok front :=
    rfl
  have further :
      Justfile.book "# Leave\nbye:\n\t@exit 0\nalias b := bye\ny := \"\\t\"\n" "justfile" =
        .ok behind :=
    rfl
  have names : List.Disjoint front.bindings.names behind.bindings.names :=
    List.disjoint_left.mpr (by decide)
  have keys : List.Disjoint front.catalog.keys behind.catalog.keys :=
    List.disjoint_left.mpr (by decide)
  exact book_append described further names keys

end Cookbook.Justfile
