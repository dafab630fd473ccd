import DeclGraph.Query.Pattern

/-!
# What a path pattern stands for

A path pattern stands for paths by two rules, one for segments and one for what is in a segment,
and in both a star leaves open how much it stands for. The search does not try everything that a
star could stand for: within a segment it takes each piece between two stars where it first
occurs. Nothing is missed by that, since what lies behind the first occurrence of a piece has
what lies behind any other occurrence as an end.
-/

namespace DeclGraph

namespace Text

/-- Cutting at a mark leaves any other character at the front of the first piece. -/
theorem cutAt_cons_of_ne {mark c : Char} (other : c ≠ mark) (text : List Char) :
    cutAt mark (c :: text) = (cutAt mark text).modifyHead (c :: ·) := by
  rw [cutAt, if_neg other]
  cases cut : cutAt mark text with
  | nil => exact absurd cut (cutAt_ne_nil mark text)
  | cons piece pieces => rfl

/-- Cutting a text is splitting a list at an element. -/
theorem cutAt_eq_splitOn (mark : Char) (text : List Char) :
    cutAt mark text = text.splitOn mark := by
  induction text with
  | nil => rw [List.splitOn_nil, cutAt]
  | cons c rest further =>
    rw [List.splitOn_cons_eq_if_modifyHead]
    by_cases same : c = mark
    · rw [cutAt, if_pos same, if_pos (by simpa using same), further]
    · rw [cutAt_cons_of_ne same, if_neg (by simpa using same), further]

end Text

namespace Query

/-- The texts that a segment pattern stands for: a star stands for any run of characters, and
everything else for itself. -/
inductive StandsFor : List Char → List Char → Prop where
  | nil : StandsFor [] []
  | star (run : List Char) {pattern text : List Char} (rest : StandsFor pattern text) :
    StandsFor ('*' :: pattern) (run ++ text)
  | literal {c : Char} {pattern text : List Char} (plain : c ≠ '*')
    (rest : StandsFor pattern text) : StandsFor (c :: pattern) (c :: text)

/-- The lists of segments that a list of segment patterns stands for: two stars alone stand for
any run of segments, and every other pattern for one segment. -/
inductive Spans : List (List Char) → List (List Char) → Prop where
  | nil : Spans [] []
  | segments (run : List (List Char)) {patterns path : List (List Char)}
    (rest : Spans patterns path) : Spans (['*', '*'] :: patterns) (run ++ path)
  | segment {pattern segment : List Char} {patterns path : List (List Char)}
    (single : pattern ≠ ['*', '*']) (first : StandsFor pattern segment)
    (rest : Spans patterns path) : Spans (pattern :: patterns) (segment :: path)

/-- The texts that begin with the first of some pieces, end with the last, and have the others in
their order between them. -/
inductive MadeOf : List (List Char) → List Char → Prop where
  | last (piece : List Char) : MadeOf [piece] piece
  | next (piece run : List Char) {pieces : List (List Char)} {rest : List Char}
    (further : MadeOf pieces rest) : MadeOf (piece :: pieces) (piece ++ (run ++ rest))

/-- Whether an end of a text is made of pieces. -/
def EndsMadeOf (pieces : List (List Char)) (text : List Char) : Prop :=
  ∃ rest, rest <:+ text ∧ MadeOf pieces rest

section Pieces

variable {piece : List Char} {pieces : List (List Char)} {text : List Char}

/-- Nothing is made of no pieces. -/
theorem MadeOf.ne_nil (made : MadeOf pieces text) : pieces ≠ [] := by
  cases made <;> simp

/-- A text made of one piece is that piece. -/
theorem madeOf_singleton : MadeOf [piece] text ↔ text = piece := by
  constructor
  · intro made
    cases made with
    | last => rfl
    | next _ _ further => exact absurd rfl further.ne_nil
  · rintro rfl
    exact .last text

/-- A text made of several pieces begins with the first and goes on to an end made of the others. -/
theorem madeOf_cons (more : pieces ≠ []) :
    MadeOf (piece :: pieces) text ↔ ∃ behind, text = piece ++ behind ∧ EndsMadeOf pieces behind := by
  constructor
  · intro made
    cases made with
    | last => exact absurd rfl more
    | next _ run further => exact ⟨_, rfl, _, List.suffix_append run _, further⟩
  · rintro ⟨_, rfl, rest, ⟨run, rfl⟩, further⟩
    exact .next piece run further

/-- A first piece that is longer by a character in front makes texts that are longer by it. -/
theorem madeOf_cons_cons {c : Char} :
    MadeOf ((c :: piece) :: pieces) text ↔ ∃ rest, text = c :: rest ∧ MadeOf (piece :: pieces) rest := by
  by_cases more : pieces = []
  · subst more
    simp only [madeOf_singleton, exists_eq_right]
  · simp only [madeOf_cons more]
    constructor
    · rintro ⟨behind, rfl, further⟩
      exact ⟨piece ++ behind, rfl, behind, rfl, further⟩
    · rintro ⟨_, rfl, behind, rfl, further⟩
      exact ⟨behind, rfl, further⟩

/-- An end of a text that is made of pieces is one of any longer text. -/
theorem EndsMadeOf.of_suffix {longer : List Char} (made : EndsMadeOf pieces text)
    (isEnd : text <:+ longer) : EndsMadeOf pieces longer := by
  obtain ⟨rest, isRest, further⟩ := made
  exact ⟨rest, isRest.trans isEnd, further⟩

/-- A segment pattern stands for the texts made of its pieces between the stars. -/
theorem standsFor_iff_madeOf {pattern : List Char} :
    StandsFor pattern text ↔ MadeOf (Text.cutAt '*' pattern) text := by
  induction pattern generalizing text with
  | nil =>
    rw [Text.cutAt, madeOf_singleton]
    constructor
    · intro stands
      cases stands
      rfl
    · rintro rfl
      exact .nil
  | cons c pattern further =>
    by_cases isStar : c = '*'
    · subst isStar
      rw [Text.cutAt, if_pos rfl, madeOf_cons (Text.cutAt_ne_nil '*' pattern)]
      constructor
      · intro stands
        cases stands with
        | star run rest => exact ⟨_, rfl, _, List.suffix_append run _, further.mp rest⟩
        | literal plain _ => exact absurd rfl plain
      · rintro ⟨_, rfl, rest, ⟨run, rfl⟩, made⟩
        exact .star run (further.mpr made)
    · obtain ⟨piece, pieces, cut⟩ := List.exists_cons_of_ne_nil (Text.cutAt_ne_nil '*' pattern)
      rw [Text.cutAt_cons_of_ne isStar, cut, List.modifyHead_cons, madeOf_cons_cons, ← cut]
      constructor
      · intro stands
        cases stands with
        | star => exact absurd rfl isStar
        | literal _ rest => exact ⟨_, rfl, further.mp rest⟩
      · rintro ⟨rest, rfl, made⟩
        exact .literal isStar (further.mpr made)

end Pieces

section Searching

variable {needle text : List Char}

/-- What stands behind the first place of a text stands behind some text and it. -/
theorem exists_before_of_afterFirst? {rest : List Char} (found : afterFirst? needle text = some rest) :
    ∃ before, text = before ++ (needle ++ rest) := by
  induction text with
  | nil =>
    unfold afterFirst? at found
    split at found
    · rename_i isEmpty
      cases found
      exact ⟨[], by simpa using isEmpty⟩
    · cases found
  | cons c text further =>
    unfold afterFirst? at found
    split at found
    · rename_i isFirst
      obtain ⟨behind, same⟩ := List.isPrefixOf_iff_prefix.mp isFirst
      cases found
      exact ⟨[], by simp [← same]⟩
    · obtain ⟨before, rfl⟩ := further found
      exact ⟨c :: before, rfl⟩

/-- What lies behind some occurrence of a text is an end of what lies behind the first one. -/
theorem afterFirst?_of_occurs {behind : List Char} (occurs : (needle ++ behind) <:+ text) :
    ∃ rest, afterFirst? needle text = some rest ∧ behind <:+ rest := by
  induction text with
  | nil =>
    obtain ⟨rfl, rfl⟩ := List.append_eq_nil_iff.mp (List.suffix_nil.mp occurs)
    exact ⟨[], rfl, List.suffix_refl []⟩
  | cons c text further =>
    unfold afterFirst?
    by_cases isFirst : needle.isPrefixOf (c :: text)
    · rw [if_pos isFirst]
      refine ⟨_, rfl, List.suffix_of_suffix_length_le ((List.suffix_append _ _).trans occurs)
        (List.drop_suffix _ _) ?_⟩
      have short := occurs.length_le
      rw [List.length_append] at short
      rw [List.length_drop]
      omega
    · rw [if_neg isFirst]
      refine further ((List.suffix_cons_iff.mp occurs).resolve_left fun whole => isFirst ?_)
      exact List.isPrefixOf_iff_prefix.mpr ⟨behind, whole⟩

/-- Of several pieces the first is matched at its first place. -/
theorem piecesMatch_cons {piece : List Char} {pieces : List (List Char)} (more : pieces ≠ []) :
    piecesMatch (piece :: pieces) text =
      match afterFirst? piece text with
      | some rest => piecesMatch pieces rest
      | none => false := by
  cases pieces with
  | nil => exact absurd rfl more
  | cons next pieces => rfl

/-- Taking each piece where it first occurs finds the pieces if they occur in their order at
all. -/
theorem piecesMatch_iff {pieces : List (List Char)} (some_ : pieces ≠ []) :
    piecesMatch pieces text = true ↔ EndsMadeOf pieces text := by
  induction pieces generalizing text with
  | nil => exact absurd rfl some_
  | cons piece pieces further =>
    by_cases more : pieces = []
    · subst more
      rw [piecesMatch, List.isSuffixOf_iff_suffix]
      simp only [EndsMadeOf, madeOf_singleton, exists_eq_right]
    · rw [piecesMatch_cons more]
      constructor
      · intro matches_
        cases found : afterFirst? piece text with
        | none => simp [found] at matches_
        | some rest =>
          simp only [found] at matches_
          obtain ⟨before, rfl⟩ := exists_before_of_afterFirst? found
          exact ⟨piece ++ rest, List.suffix_append before _,
            (madeOf_cons more).mpr ⟨rest, rfl, (further more).mp matches_⟩⟩
      · rintro ⟨_, isEnd, made⟩
        obtain ⟨behind, rfl, ends⟩ := (madeOf_cons more).mp made
        obtain ⟨rest, found, behindFirst⟩ := afterFirst?_of_occurs isEnd
        simp only [found]
        exact (further more).mpr (ends.of_suffix behindFirst)

/-- A segment matches exactly the segment patterns that stand for it. -/
theorem segmentMatches_iff {pattern segment : List Char} :
    segmentMatches pattern segment = true ↔ StandsFor pattern segment := by
  rw [standsFor_iff_madeOf, segmentMatches]
  obtain ⟨first, pieces, cut⟩ := List.exists_cons_of_ne_nil (Text.cutAt_ne_nil '*' pattern)
  rw [cut]
  cases pieces with
  | nil => rw [madeOf_singleton, beq_iff_eq, eq_comm]
  | cons next pieces =>
    have more : next :: pieces ≠ [] := List.cons_ne_nil next pieces
    simp only [Bool.and_eq_true, List.isPrefixOf_iff_prefix, piecesMatch_iff more, madeOf_cons more]
    constructor
    · rintro ⟨⟨behind, rfl⟩, ends⟩
      exact ⟨behind, rfl, by simpa using ends⟩
    · rintro ⟨behind, rfl, ends⟩
      exact ⟨List.prefix_append first behind, by simpa using ends⟩

/-- Some end of a list is accepted exactly when one of its suffixes is. -/
theorem someSuffix_iff {α : Type} {accepts : List α → Bool} {items : List α} :
    someSuffix accepts items = true ↔ ∃ rest, rest <:+ items ∧ accepts rest = true := by
  induction items with
  | nil => simp [someSuffix]
  | cons item items further =>
    simp only [someSuffix, Bool.or_eq_true, further, List.suffix_cons_iff, or_and_right, exists_or,
      exists_eq_left]

end Searching

section Segments

variable {pattern : List Char} {patterns path : List (List Char)}

/-- No patterns span the empty path alone. -/
theorem spans_nil : Spans [] path ↔ path = [] := by
  constructor
  · intro spans
    cases spans
    rfl
  · rintro rfl
    exact .nil

/-- A run at the front spans any beginning of a path. -/
theorem spans_run_cons :
    Spans (['*', '*'] :: patterns) path ↔ ∃ rest, rest <:+ path ∧ Spans patterns rest := by
  constructor
  · intro spans
    cases spans with
    | segments run rest => exact ⟨_, List.suffix_append run _, rest⟩
    | segment single _ _ => exact absurd rfl single
  · rintro ⟨rest, ⟨run, rfl⟩, spans⟩
    exact .segments run spans

/-- A pattern for single segments spans one segment. -/
theorem spans_single_cons (single : pattern ≠ ['*', '*']) :
    Spans (pattern :: patterns) path ↔
      ∃ segment rest, path = segment :: rest ∧ StandsFor pattern segment ∧ Spans patterns rest := by
  constructor
  · intro spans
    cases spans with
    | segments => exact absurd rfl single
    | segment _ first rest => exact ⟨_, _, rfl, first, rest⟩
  · rintro ⟨segment, rest, rfl, first, spans⟩
    exact .segment single first spans

/-- Segments match exactly the lists of segment patterns that stand for them. -/
theorem segmentsMatch_iff : segmentsMatch patterns path = true ↔ Spans patterns path := by
  induction patterns generalizing path with
  | nil => rw [segmentsMatch, List.isEmpty_iff, spans_nil]
  | cons pattern patterns further =>
    unfold segmentsMatch
    by_cases isRun : pattern = ['*', '*']
    · subst isRun
      rw [if_pos rfl, someSuffix_iff, spans_run_cons]
      simp only [further]
    · rw [if_neg isRun, spans_single_cons isRun]
      cases path with
      | nil => simp
      | cons segment path =>
        rw [Bool.and_eq_true, segmentMatches_iff, further]
        constructor
        · exact fun both => ⟨segment, path, rfl, both⟩
        · rintro ⟨_, _, ⟨⟩, both⟩
          exact both

end Segments

/-- A path matches a path pattern if and only if, both split at the slashes, the segments of the
pattern stand for those of the path. -/
theorem pathMatches_iff_spans (pattern path : String) :
    pathMatches pattern path = true ↔
      Spans (pattern.toList.splitOn '/') (path.toList.splitOn '/') := by
  rw [pathMatches, segmentsMatch_iff, Text.cutAt_eq_splitOn, Text.cutAt_eq_splitOn]

end Query

end DeclGraph
