import Cookbook.Proofs.Chain.Cut

/-!
# Where a line is cut

The quoting states of the word reader give a meaning to every position of a
line.  Among the characters that are read in the bare state, two ampersands in
a row are a pair, and pairs are told apart from left to right.  A line is cut
at its pairs and nowhere else, and it is refused for its first stray operator,
one that is read in the bare state and belongs to no pair.
-/

namespace Cookbook.Chain

open Word (Quoting)

variable
    {quoting : Quoting}
    {text front back rest : List Char}
    {letter : Char}
    {found : List (List Char)}
    {i : Nat}

/-! ## Positions of a text -/

/-- The character at a position is read in the bare state: not in quotes, not escaped. -/
def Exposed (quoting : Quoting) (text : List Char) (i : Nat) : Prop :=
  quoting.after (text.take i) = .bare

/-- Two ampersands stand at a position, outside quotes and not escaped. -/
def Ampersands (quoting : Quoting) (text : List Char) (i : Nat) : Prop :=
  Exposed quoting text i ∧ text[i]? = some '&' ∧ text[i + 1]? = some '&'

/-- A pair starts at two ampersands, unless the first of them ends the pair before. -/
def StartsPair (quoting : Quoting) (text : List Char) : Nat → Prop
  | 0 => Ampersands quoting text 0
  | i + 1 => Ampersands quoting text (i + 1) ∧ ¬StartsPair quoting text i

/-- An operator outside quotes and not escaped that belongs to no pair. -/
structure Stray (quoting : Quoting) (text : List Char) (i : Nat) : Prop where
  operates : ∃ letter, text[i]? = some letter ∧ isOperator letter = true
  exposed : Exposed quoting text i
  starts : ¬StartsPair quoting text i
  ends : ∀ earlier, i = earlier + 1 → ¬StartsPair quoting text earlier

/-- Where the double ampersands stand when pieces are joined by them. -/
def seams : List (List Char) → List Nat
  | [] => []
  | [_] => []
  | piece :: later => piece.length :: (seams later).map (piece.length + 2 + ·)

theorem StartsPair.ampersands
    (starts : StartsPair quoting text i) :
    Ampersands quoting text i := by
  cases i with
  | zero => exact starts
  | succ i => exact starts.1

/-! ## Positions behind a front -/

theorem getElem?_behind
    (front rest : List Char)
    (i : Nat) :
    (front ++ rest)[front.length + i]? = rest[i]? := by
  rw [List.getElem?_append_right (Nat.le_add_right _ _), Nat.add_sub_cancel_left]

theorem exposed_behind :
    Exposed quoting (front ++ rest) (front.length + i) ↔
      Exposed (quoting.after front) rest i := by
  rw [Exposed, Exposed, List.take_length_add_append, Quoting.after_append]

theorem ampersands_behind :
    Ampersands quoting (front ++ rest) (front.length + i) ↔
      Ampersands (quoting.after front) rest i := by
  rw [Ampersands, Ampersands, exposed_behind, Nat.add_assoc, getElem?_behind, getElem?_behind]

/-- No pair starts at the last position of a front. -/
def Closed (quoting : Quoting) (front rest : List Char) : Prop :=
  ∀ i, front.length = i + 1 → ¬StartsPair quoting (front ++ rest) i

theorem Closed.startsPair_iff
    (closed : Closed quoting front rest) :
    StartsPair quoting (front ++ rest) (front.length + i) ↔
      StartsPair (quoting.after front) rest i := by
  induction i with
  | zero =>
    cases reached : front.length with
    | zero =>
      rw [List.eq_nil_of_length_eq_zero reached]
      rfl
    | succ last =>
      have moved := @ampersands_behind quoting front rest 0
      rw [reached] at moved
      exact (and_iff_left (closed last reached)).trans moved
  | succ i ih =>
    exact and_congr (@ampersands_behind quoting front rest (i + 1)) (not_congr ih)

theorem Closed.stray_iff
    (closed : Closed quoting front rest) :
    Stray quoting (front ++ rest) (front.length + i) ↔ Stray (quoting.after front) rest i := by
  constructor
  · intro stray
    constructor
    case operates => simpa only [getElem?_behind] using stray.operates
    case exposed => exact exposed_behind.mp stray.exposed
    case starts => exact fun starts => stray.starts (closed.startsPair_iff.mpr starts)
    case ends =>
      rintro earlier rfl starts
      exact stray.ends (front.length + earlier) rfl (closed.startsPair_iff.mpr starts)
  · intro stray
    constructor
    case operates => simpa only [getElem?_behind] using stray.operates
    case exposed => exact exposed_behind.mpr stray.exposed
    case starts => exact fun starts => stray.starts (closed.startsPair_iff.mp starts)
    case ends =>
      intro earlier behind starts
      cases i with
      | zero => exact closed earlier behind starts
      | succ i =>
        cases Nat.succ.inj behind
        exact stray.ends i rfl (closed.startsPair_iff.mp starts)

/-! ## Fronts that hold no stray operator -/

/-- A front holds no stray operator, and its end parts no pair. -/
structure Passed (quoting : Quoting) (front rest : List Char) : Prop where
  closed : Closed quoting front rest
  clean : ∀ i < front.length, ¬Stray quoting (front ++ rest) i

theorem Passed.append
    (first : Passed quoting front (back ++ rest))
    (second : Passed (quoting.after front) back rest) :
    Passed quoting (front ++ back) rest := by
  constructor
  case closed =>
    intro i reached starts
    rw [List.append_assoc] at starts
    rw [List.length_append] at reached
    cases length : back.length with
    | zero =>
      rw [length] at reached
      exact first.closed i reached starts
    | succ last =>
      have moved : i = front.length + last := by omega
      rw [moved] at starts
      exact second.closed last length (first.closed.startsPair_iff.mp starts)
  case clean =>
    intro i within stray
    rw [List.append_assoc] at stray
    rw [List.length_append] at within
    by_cases early : i < front.length
    · exact first.clean i early stray
    · rcases Nat.exists_eq_add_of_le (Nat.le_of_not_lt early) with ⟨j, rfl⟩
      exact second.clean j (by omega) (first.closed.stray_iff.mp stray)

theorem Guarded.not_exposed
    (guarded : Guarded quoting text)
    (present : text[i]? = some letter)
    (operates : isOperator letter = true) :
    ¬Exposed quoting text i := by
  rcases List.getElem?_eq_some_iff.mp present with ⟨within, rfl⟩
  rw [← List.take_append_drop i text, List.drop_eq_getElem_cons within] at guarded
  exact guarded.not_bare operates

/-- Within a guarded front no operator is exposed, whatever stands behind it. -/
theorem Guarded.not_exposed_append
    (guarded : Guarded quoting front)
    (within : i < front.length)
    (present : (front ++ rest)[i]? = some letter)
    (operates : isOperator letter = true) :
    ¬Exposed quoting (front ++ rest) i := by
  rw [List.getElem?_append_left within] at present
  rw [Exposed, List.take_append_of_le_length (Nat.le_of_lt within)]
  exact guarded.not_exposed present operates

theorem Guarded.not_startsPair
    (guarded : Guarded quoting front)
    (within : i < front.length) :
    ¬StartsPair quoting (front ++ rest) i := by
  intro starts
  rcases starts.ampersands with ⟨exposed, first, _⟩
  exact guarded.not_exposed_append within first (by decide) exposed

theorem Guarded.passed
    (guarded : Guarded quoting front)
    (rest : List Char) :
    Passed quoting front rest := by
  constructor
  case closed =>
    intro i reached
    apply guarded.not_startsPair
    omega
  case clean =>
    intro i within stray
    rcases stray.operates with ⟨letter, present, operates⟩
    exact guarded.not_exposed_append within present operates stray.exposed

theorem startsPair_zero :
    StartsPair .bare ('&' :: '&' :: rest) 0 :=
  ⟨rfl, rfl, rfl⟩

theorem not_startsPair_one :
    ¬StartsPair .bare ('&' :: '&' :: rest) 1 := by
  intro starts
  exact starts.2 startsPair_zero

theorem passed_pair
    (rest : List Char) :
    Passed .bare ['&', '&'] rest := by
  constructor
  case closed =>
    intro i reached
    cases Nat.succ.inj reached
    exact not_startsPair_one
  case clean =>
    intro i within stray
    match i, within with
    | 0, _ => exact stray.starts startsPair_zero
    | 1, _ => exact stray.ends 0 rfl startsPair_zero

/-- A text that is cut into pieces holds no stray operator, whatever stands behind it. -/
theorem Cut.passed
    (cut : Cut quoting front found)
    (rest : List Char) :
    Passed quoting front rest := by
  induction cut with
  | last guarded => exact guarded.passed rest
  | @more quoting piece inner later guarded ends _ ih =>
    apply (guarded.passed _).append
    rw [ends]
    exact (passed_pair (inner ++ rest)).append ih

/-- The pieces are parted just where the pairs of the text stand. -/
theorem Cut.mem_seams_iff
    (cut : Cut quoting text found) :
    i ∈ seams found ↔ StartsPair quoting text i := by
  induction cut generalizing i with
  | @last quoting text guarded =>
    have never : ¬StartsPair quoting text i := by
      intro starts
      rcases starts.ampersands with ⟨exposed, first, _⟩
      exact guarded.not_exposed first (by decide) exposed
    simp [seams, never]
  | @more quoting piece rest later guarded ends cut ih =>
    have parted : seams (piece :: later) =
        piece.length :: (seams later).map (piece.length + 2 + ·) := by
      cases cut <;> rfl
    rw [parted, List.mem_cons, List.mem_map]
    -- in front of the seam, at the seam, or behind its two ampersands
    by_cases early : i < piece.length
    · have never := @Guarded.not_startsPair quoting piece ('&' :: '&' :: rest) i guarded early
      apply iff_of_false _ never
      rintro (same | ⟨seam, _, same⟩) <;> omega
    · rcases Nat.exists_eq_add_of_le (Nat.le_of_not_lt early) with ⟨j, rfl⟩
      rw [(guarded.passed _).closed.startsPair_iff, ends]
      match j with
      | 0 => simp [startsPair_zero]
      | 1 =>
        apply iff_of_false _ not_startsPair_one
        rintro (same | ⟨seam, _, same⟩) <;> omega
      | j + 2 =>
        have moved : StartsPair .bare ('&' :: '&' :: rest) (j + 2) ↔ StartsPair .bare rest j := by
          rw [Nat.add_comm]
          exact (passed_pair rest).closed.startsPair_iff
        rw [moved, ← ih]
        constructor
        · rintro (same | ⟨seam, present, same⟩)
          · omega
          · have equal : seam = j := by omega
            exact equal ▸ present
        · intro present
          exact Or.inr ⟨j, present, by omega⟩

/-! ## Refusals -/

/-- An operator in the bare state that has no ampersand to go with is stray. -/
theorem stray_zero
    (operates : isOperator letter = true)
    (single : ¬PairAhead (letter :: back)) :
    Stray .bare (letter :: back) 0 := by
  constructor
  case operates => exact ⟨letter, rfl, operates⟩
  case exposed => rfl
  case starts =>
    rintro ⟨_, first, second⟩
    apply single
    cases Option.some.inj first
    rcases List.getElem?_eq_some_iff.mp second with ⟨within, present⟩
    rw [List.getElem_cons_succ] at present
    rw [PairAhead, List.cons_prefix_cons, ← present]
    refine ⟨rfl, ?_⟩
    cases back with
    | nil => cases Nat.lt_of_succ_lt_succ within
    | cons next back => simp
  case ends =>
    intro earlier behind
    cases behind

/--
A line is cut with the quoting states in which its words are read.  If it holds
a stray operator, it is refused for the first one, with its column and the run
of operators that starts there.  Otherwise it is cut at its pairs: joined by
double ampersands the pieces are the line, the segments are the pieces in
order, trimmed, and no segment holds an operator outside quotes.
-/
theorem segments_cut_at_pairs
    (line : String) :
    match segments line with
    | .error problem =>
      ∃ i, Stray .bare line.toList i ∧ (∀ earlier < i, ¬Stray .bare line.toList earlier) ∧
        problem =
          .shellOperator (String.ofList ((line.toList.drop i).takeWhile isOperator)) (i + 1)
    | .ok found =>
      (∀ i, ¬Stray .bare line.toList i) ∧
        (∃ written, ['&', '&'].intercalate written = line.toList ∧
          (∀ i, i ∈ seams written ↔ StartsPair .bare line.toList i) ∧
          found = written.map fun piece => String.ofList (Text.trim piece)) ∧
        ∀ segment ∈ found, ∀ i letter, segment.toList[i]? = some letter →
          isOperator letter = true → ¬Exposed .bare segment.toList i := by
  have scanned := scanned_piecesFrom 1 line.toList .outside
  simp only [segments, pieces]
  generalize line.toList = text at scanned
  generalize piecesFrom 1 none text = result at scanned
  cases scanned with
  | @cut _ written cut =>
    have passed := cut.passed []
    refine ⟨?_, ⟨written, cut.joined, fun i => cut.mem_seams_iff, rfl⟩, ?_⟩
    · intro i stray
      rcases stray.operates with ⟨letter, present, _⟩
      have within := (List.getElem?_eq_some_iff.mp present).1
      rw [← List.append_nil text] at stray
      exact passed.clean i within stray
    · intro segment present i letter at_ operates
      rcases List.mem_map.mp present with ⟨piece, member, rfl⟩
      rw [String.toList_ofList] at at_ ⊢
      exact ((cut.guarded piece member).trim).not_exposed at_ operates
  | @refused front back letter found cut bare operates single =>
    have passed := cut.passed (letter :: back)
    refine ⟨front.length, ?_, fun earlier within => passed.clean earlier within, ?_⟩
    · rw [← Nat.add_zero front.length]
      rw [passed.closed.stray_iff, bare]
      exact stray_zero operates single
    · simp [Nat.add_comm]

end Cookbook.Chain
