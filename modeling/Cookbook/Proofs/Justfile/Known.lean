import Cookbook.Proofs.Justfile.Naming
import Mathlib.Data.List.Nodup

/-!
# What is known after some lines

Everything that is known after some lines was written on them.  That is the
invariant of reading: names have been read as names, no variable is known
twice, and the numbers of lines are those of lines that were read.  Each header
opens a recipe and nothing else does, so the recipes stand in the order of
their headers.
-/

namespace Cookbook.Justfile

variable
    {text written : List Char}
    {lines : List (List Char)}
    {count : Nat}
    {reading later : Reading}
    {fault : Fault}

/-! ## One more line -/

/-- What is known after one more line, by the kind of the line. -/
inductive Reading.Moves (reading : Reading) (line : Numbered) : Line → Reading → Prop
  | blank :
      Moves reading line .blank reading.skip
  | indented {sketch : Sketch}
      (opened : reading.current = some sketch) :
      Moves reading line .indented
        { reading with current := some { sketch with body := sketch.body ++ [line] } }
  | comment {doc : Option String} :
      Moves reading line (.comment doc) { reading.close with doc := doc }
  | nickname {name target : String} :
      Moves reading line (.nickname name target)
        { reading.close with aliases := reading.aliases ++ [⟨line.number, name, target⟩] }
  | definition {name : String} {written content : List Char}
      (fresh : name ∉ reading.definitions.map Prod.fst)
      (decoded : decodeValue written = .ok content) :
      Moves reading line (.definition name written)
        { reading.close with
          definitions := reading.definitions ++ [(name, String.ofList content)] }
  | header {quiet : Bool} {name : String} {needs : List (List Char)}
      (needed : ∀ need ∈ needs, Identifier.isIdentifier need = true) :
      Moves reading line (.header quiet name needs)
        { reading.close with
          current := some ⟨name, needs.map String.ofList, quiet, reading.doc, []⟩ }

theorem Reading.moves_of_next
    {line : Numbered}
    (moved : reading.next line = .ok later) :
    reading.Moves line (Line.read line.text) later := by
  unfold next at moved
  split at moved
  case h_1 read =>
    cases moved
    exact read ▸ .blank
  case h_2 read =>
    unfold indent at moved
    split at moved
    · cases moved
    · rename_i opened
      cases moved
      exact read ▸ .indented opened
  case h_3 read =>
    cases moved
    exact read ▸ .comment
  case h_4 read =>
    cases moved
    exact read ▸ .nickname
  case h_5 read =>
    unfold define at moved
    split at moved
    · cases moved
    · rename_i fresh
      split at moved
      · cases moved
      · rename_i decoded
        cases moved
        exact read ▸ .definition (fun known => fresh (List.contains_iff_mem.mpr known)) decoded
  case h_6 read =>
    unfold openRecipe at moved
    split at moved
    · cases moved
    · rename_i accepted
      cases moved
      refine read ▸ .header fun need member => ?_
      have whole := List.find?_eq_none.mp accepted need member
      simpa using whole
  case h_7 => cases moved

theorem Reading.next_of_moves
    {line : Numbered}
    (moves : reading.Moves line (Line.read line.text) later) :
    reading.next line = .ok later := by
  generalize read : Line.read line.text = kind at moves
  rw [Reading.next, read]
  cases moves with
  | blank => rfl
  | indented opened => simp only [indent, opened]
  | comment => rfl
  | nickname => rfl
  | definition fresh decoded =>
    have unknown := mt List.contains_iff_mem.mp fresh
    simp only [define, decoded]
    rw [if_neg unknown]
  | @header quiet name needs needed =>
    have accepted : ∀ need ∈ needs, ¬(!Identifier.isIdentifier need) = true :=
      fun need member => by simp [needed need member]
    simp only [openRecipe, List.find?_eq_none.mpr accepted]

/-! ## Sound readings -/

/-- A number of one of the first lines. -/
def Counted (count number : Nat) : Prop :=
  1 ≤ number ∧ number ≤ count

theorem Counted.succ
    {number : Nat}
    (counted : Counted count number) :
    Counted (count + 1) number :=
  ⟨counted.1, Nat.le_succ_of_le counted.2⟩

theorem counted_last
    (count : Nat) :
    Counted (count + 1) (count + 1) :=
  ⟨Nat.le_add_left 1 count, Nat.le_refl _⟩

/-- A recipe that was written on the first lines. -/
structure Sketch.Sound (count : Nat) (sketch : Sketch) : Prop where
  named : IsName sketch.name
  needed : ∀ need ∈ sketch.needs, IsName need
  numbered : ∀ line ∈ sketch.body, Counted count line.number

/-- What is known after the first lines was written on them. -/
structure Reading.Sound (count : Nat) (reading : Reading) : Prop where
  defined : ∀ entry ∈ reading.definitions, IsName entry.1
  distinct : (reading.definitions.map Prod.fst).Nodup
  aliased : ∀ written ∈ reading.aliases, IsName written.name ∧ Counted count written.number
  sketched : ∀ sketch ∈ reading.sketches, sketch.Sound count

theorem Reading.sound_start :
    start.Sound 0 := by
  constructor
  case defined => exact List.forall_mem_nil _
  case distinct => exact List.nodup_nil
  case aliased => exact List.forall_mem_nil _
  case sketched => exact List.forall_mem_nil _

theorem Sketch.Sound.succ
    {sketch : Sketch}
    (sound : sketch.Sound count) :
    sketch.Sound (count + 1) := by
  refine ⟨sound.named, sound.needed, ?_⟩
  exact fun line member => (sound.numbered line member).succ

namespace Reading

/-- What was written on the first lines was written on these and the next. -/
theorem Sound.succ
    (sound : reading.Sound count) :
    reading.Sound (count + 1) := by
  constructor
  case defined => exact sound.defined
  case distinct => exact sound.distinct
  case aliased =>
    exact fun written member => (sound.aliased written member).imp_right Counted.succ
  case sketched => exact fun sketch member => (sound.sketched sketch member).succ

theorem sketches_close
    (reading : Reading) :
    reading.close.sketches = reading.sketches :=
  List.append_nil _

theorem sketches_skip
    (reading : Reading) :
    reading.skip.sketches = reading.sketches := by
  unfold skip
  split
  · rfl
  · rfl

/-- Only variables, aliases and recipes matter to whether what is known is sound. -/
theorem Sound.of_eq
    (sound : reading.Sound count)
    (definitions : later.definitions = reading.definitions)
    (aliases : later.aliases = reading.aliases)
    (sketches : later.sketches = reading.sketches) :
    later.Sound count := by
  constructor
  case defined => exact definitions ▸ sound.defined
  case distinct => exact definitions ▸ sound.distinct
  case aliased => exact aliases ▸ sound.aliased
  case sketched => exact sketches ▸ sound.sketched

theorem Sound.close
    (sound : reading.Sound count) :
    reading.close.Sound count :=
  sound.of_eq rfl rfl (sketches_close reading)

theorem Sound.skip
    (sound : reading.Sound count) :
    reading.skip.Sound count := by
  unfold Reading.skip
  split
  · exact sound.of_eq rfl rfl rfl
  · exact sound

theorem Sound.indent
    {line : Numbered}
    {sketch : Sketch}
    (sound : reading.Sound count)
    (counted : Counted count line.number)
    (opened : reading.current = some sketch) :
    Sound count
      { reading with current := some { sketch with body := sketch.body ++ [line] } } := by
  constructor
  case defined => exact sound.defined
  case distinct => exact sound.distinct
  case aliased => exact sound.aliased
  case sketched =>
    have known : reading.sketches = reading.complete ++ [sketch] := by
      rw [sketches, opened]
      rfl
    have sketched := sound.sketched
    rw [known, List.forall_mem_append, List.forall_mem_singleton] at sketched
    apply List.forall_mem_append.mpr ⟨sketched.1, List.forall_mem_singleton.mpr ?_⟩
    constructor
    case named => exact sketched.2.named
    case needed => exact sketched.2.needed
    case numbered =>
      exact List.forall_mem_append.mpr
        ⟨sketched.2.numbered, List.forall_mem_singleton.mpr counted⟩

theorem Sound.define
    {name value : String}
    (sound : reading.Sound count)
    (named : IsName name)
    (fresh : name ∉ reading.definitions.map Prod.fst) :
    Sound count
      { reading.close with definitions := reading.definitions ++ [(name, value)] } := by
  constructor
  case defined =>
    exact List.forall_mem_append.mpr ⟨sound.defined, List.forall_mem_singleton.mpr named⟩
  case distinct =>
    rw [List.map_append]
    apply List.Nodup.append sound.distinct (List.nodup_singleton name)
    exact List.disjoint_singleton.mpr fresh
  case aliased => exact sound.close.aliased
  case sketched => exact sound.close.sketched

theorem Sound.openRecipe
    {quiet : Bool}
    {name : String}
    {needs : List (List Char)}
    (sound : reading.Sound count)
    (named : IsName name)
    (needed : ∀ need ∈ needs, Identifier.isIdentifier need = true) :
    Sound count
      { reading.close with
        current := some ⟨name, needs.map String.ofList, quiet, reading.doc, []⟩ } := by
  constructor
  case defined => exact sound.defined
  case distinct => exact sound.distinct
  case aliased => exact sound.aliased
  case sketched =>
    apply List.forall_mem_append.mpr ⟨sound.sketched, List.forall_mem_singleton.mpr ?_⟩
    constructor
    case named => exact named
    case needed =>
      refine List.forall_mem_map.mpr ?_
      intro need member
      rw [IsName, String.toList_ofList]
      exact needed need member
    case numbered => exact List.forall_mem_nil _

/-- One more line keeps the invariant. -/
theorem Sound.next
    (sound : reading.Sound count)
    (moved : reading.next ⟨count + 1, text⟩ = .ok later) :
    later.Sound (count + 1) := by
  have moves := moves_of_next moved
  generalize read : Line.read text = kind at moves
  cases moves with
  | blank => exact sound.succ.skip
  | indented opened => exact sound.succ.indent (counted_last count) opened
  | comment => exact sound.succ.of_eq rfl rfl (sketches_close reading)
  | nickname =>
    have known := sound.succ.close
    constructor
    case defined => exact known.defined
    case distinct => exact known.distinct
    case aliased =>
      apply List.forall_mem_append.mpr ⟨known.aliased, List.forall_mem_singleton.mpr ?_⟩
      exact ⟨isName_of_read read rfl, counted_last count⟩
    case sketched => exact known.sketched
  | definition fresh _ => exact sound.succ.define (isName_of_read read rfl) fresh
  | header needed => exact sound.succ.openRecipe (isName_of_read read rfl) needed

/-- Further lines keep the invariant. -/
theorem Sound.continueFrom
    (sound : reading.Sound count)
    (read : reading.continueFrom (count + 1) lines = .ok later) :
    later.Sound (count + lines.length) := by
  induction lines generalizing reading count with
  | nil =>
    cases read
    exact sound
  | cons line rest ih =>
    rw [Reading.continueFrom] at read
    split at read
    · cases read
    · rename_i next moved
      have whole := ih (sound.next moved) read
      rw [Nat.add_right_comm] at whole
      exact whole

/-- Reading stops at one of the lines that are read. -/
theorem number_of_continueFrom
    {number : Nat}
    (stopped : reading.continueFrom number lines = .error fault) :
    number ≤ fault.number ∧ fault.number < number + lines.length := by
  induction lines generalizing reading number with
  | nil => cases stopped
  | cons line rest ih =>
    rw [continueFrom] at stopped
    rw [List.length_cons]
    split at stopped
    · cases stopped
      exact ⟨Nat.le_refl number, Nat.lt_add_of_pos_right (Nat.succ_pos _)⟩
    · have behind := ih stopped
      omega

end Reading

/-! ## One recipe for each header -/

/-- The recipe whose header a line is. -/
def Line.headed? : Line → Option String
  | .header _ name _ => some name
  | _ => none

/-- The recipes whose headers stand on lines, in order. -/
def headersIn (lines : List (List Char)) : List String :=
  lines.filterMap fun line => (Line.read (Text.trimRight line)).headed?

namespace Reading

theorem names_next
    {line : Numbered}
    (moved : reading.next line = .ok later) :
    later.sketches.map Sketch.name =
      reading.sketches.map Sketch.name ++ (Line.read line.text).headed?.toList := by
  have kept : reading.close.sketches.map Sketch.name =
      reading.sketches.map Sketch.name ++ [] := by
    rw [sketches_close, List.append_nil]
  have moves := moves_of_next moved
  generalize Line.read line.text = kind at moves ⊢
  cases moves with
  | blank =>
    rw [sketches_skip]
    exact (List.append_nil _).symm
  | indented opened =>
    rw [sketches, sketches, opened, List.map_append, List.map_append]
    exact (List.append_nil _).symm
  | comment => exact kept
  | nickname => exact kept
  | definition _ _ => exact kept
  | header _ => exact List.map_append

/-- Each header opens a recipe of its name, and nothing else does. -/
theorem names_continueFrom
    {number : Nat}
    (read : reading.continueFrom number lines = .ok later) :
    later.sketches.map Sketch.name = reading.sketches.map Sketch.name ++ headersIn lines := by
  induction lines generalizing reading number with
  | nil =>
    cases read
    exact (List.append_nil _).symm
  | cons line rest ih =>
    rw [continueFrom] at read
    split at read
    · cases read
    · rename_i next moved
      rw [ih read, names_next moved, List.append_assoc, headersIn, headersIn,
        List.filterMap_cons]
      cases (Line.read (Text.trimRight line)).headed? <;> rfl

end Reading

end Cookbook.Justfile
