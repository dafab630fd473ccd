import DeclGraph.ScopedName
import Mathlib.Data.List.Infix

/-!
# Names that are read as they are written

A written name is cut at the separators outside of brackets, and what is between them is
trimmed. So a name is read back segment by segment if none of its segments has blanks at its ends
or a colon outside of brackets, and each but the last closes the brackets that it opens. The
brackets are counted for every segment from zero, although the scan has one count for the name.
-/

namespace DeclGraph

namespace ScopedName

/-- A text without blanks at its ends. -/
structure IsTrimmed (segment : String) : Prop where
  nonempty : segment.toList ≠ []
  first_inked : ∀ c ∈ segment.toList.head?, Text.isBlank c = false
  last_inked : ∀ c ∈ segment.toList.getLast?, Text.isBlank c = false

/-- A trimmed text in which colons stand only where a bracket is open. -/
structure IsSegment (segment : String) : Prop extends IsTrimmed segment where
  colons_nested : ∀ front, front ++ [':'] <+: segment.toList → Text.nestingAfter 0 front ≠ 0

/-- A name whose segments can be told from each other where it is written. The last of them may
leave brackets open. -/
structure Readable (name : ScopedName) : Prop where
  nonempty : name.segments ≠ []
  segment : ∀ segment ∈ name.segments, IsSegment segment
  closed : ∀ segment ∈ name.segments.dropLast, Text.nestingAfter 0 segment.toList = 0

/-- A trimmed text without brackets and colons. -/
structure IsBare (segment : String) : Prop extends IsTrimmed segment where
  unmarked : ∀ c ∈ segment.toList, c ∉ ['<', '>', '(', ')', ':']

section Deciding

variable {segment : String} {name : ScopedName}

-- The conditions are tested on the characters of the text, and not on all characters there are.
instance : Decidable (IsTrimmed segment) :=
  let _ : Decidable (∀ c ∈ segment.toList.head?, Text.isBlank c = false) :=
    Option.decidableForallMem _
  let _ : Decidable (∀ c ∈ segment.toList.getLast?, Text.isBlank c = false) :=
    Option.decidableForallMem _
  decidable_of_iff (segment.toList ≠ [] ∧
      (∀ c ∈ segment.toList.head?, Text.isBlank c = false) ∧
      ∀ c ∈ segment.toList.getLast?, Text.isBlank c = false)
    ⟨fun all => ⟨all.1, all.2.1, all.2.2⟩, fun trimmed =>
      ⟨trimmed.nonempty, trimmed.first_inked, trimmed.last_inked⟩⟩

/-- Whether a text is one segment is settled by the beginnings of it. -/
theorem isSegment_iff : IsSegment segment ↔ IsTrimmed segment ∧
    ∀ front ∈ segment.toList.inits, front ++ [':'] <+: segment.toList →
      Text.nestingAfter 0 front ≠ 0 := by
  constructor
  · exact fun isSegment => ⟨isSegment.toIsTrimmed, fun front _ => isSegment.colons_nested front⟩
  · rintro ⟨trimmed, nested⟩
    refine ⟨trimmed, fun front isPrefix => nested front ?_ isPrefix⟩
    exact (List.mem_inits _ _).mpr ((List.prefix_append _ _).trans isPrefix)

instance : Decidable (IsSegment segment) := decidable_of_iff' _ isSegment_iff

instance : Decidable (IsBare segment) :=
  let _ : Decidable (∀ c ∈ segment.toList, c ∉ ['<', '>', '(', ')', ':']) :=
    List.decidableBAll _ _
  decidable_of_iff (IsTrimmed segment ∧ ∀ c ∈ segment.toList, c ∉ ['<', '>', '(', ')', ':'])
    ⟨fun all => ⟨all.1, all.2⟩, fun bare => ⟨bare.toIsTrimmed, bare.unmarked⟩⟩

instance : Decidable name.Readable :=
  decidable_of_iff (name.segments ≠ [] ∧ (∀ segment ∈ name.segments, IsSegment segment) ∧
      ∀ segment ∈ name.segments.dropLast, Text.nestingAfter 0 segment.toList = 0)
    ⟨fun all => ⟨all.1, all.2.1, all.2.2⟩, fun readable =>
      ⟨readable.nonempty, readable.segment, readable.closed⟩⟩

end Deciding

section Bare

variable {segment : String} {name : ScopedName}

/-- Without brackets the nesting stays as it is. -/
theorem nestingAfter_eq_self {text : List Char} (flat : ∀ c ∈ text, c ∉ ['<', '>', '(', ')'])
    (depth : Nat) : Text.nestingAfter depth text = depth := by
  induction text generalizing depth with
  | nil => rfl
  | cons c text further =>
    have own := flat c List.mem_cons_self
    simp only [List.mem_cons, List.not_mem_nil, or_false, not_or] at own
    rw [Text.nestingAfter_cons,
      further fun other member => flat other (List.mem_cons_of_mem _ member)]
    simp [Text.nestingStep, own]

/-- A bare segment is one segment. -/
theorem IsBare.isSegment (bare : IsBare segment) : IsSegment segment where
  toIsTrimmed := bare.toIsTrimmed
  colons_nested := by
    intro front isPrefix
    have colon : ':' ∈ segment.toList := isPrefix.subset (by simp)
    exact absurd (List.mem_of_elem_eq_true rfl) (bare.unmarked ':' colon)

/-- A bare segment closes its brackets. -/
theorem IsBare.closed (bare : IsBare segment) : Text.nestingAfter 0 segment.toList = 0 :=
  nestingAfter_eq_self (fun c member marked => bare.unmarked c member (by
    simp only [List.mem_cons, List.not_mem_nil, or_false] at marked ⊢
    tauto)) 0

/-- A name with bare segments can be read back. -/
theorem readable_of_bare (nonempty : name.segments ≠ [])
    (bare : ∀ segment ∈ name.segments, IsBare segment) : name.Readable where
  nonempty := nonempty
  segment := fun segment listed => (bare segment listed).isSegment
  closed := fun segment listed => (bare segment (List.dropLast_subset _ listed)).closed

end Bare

section Scanning

variable {depth : Nat}

/-- A character that cannot begin a separator is kept. -/
theorem splitFrom_cons {c : Char} (pending rest : List Char) (plain : c = ':' → depth ≠ 0) :
    splitFrom depth pending (c :: rest) =
      splitFrom (Text.nestingStep depth c) (pending ++ [c]) rest := by
  by_cases colon : c = ':'
  · subst colon
    have flat : Text.nestingStep depth ':' = depth := by simp [Text.nestingStep]
    cases rest with
    | nil => simp [splitFrom]
    | cons next rest =>
      by_cases again : next = ':'
      · rw [again, splitFrom, if_neg (plain rfl), flat]
      · rw [splitFrom]
        exact fun _ _ same => again (List.cons.inj same).1
  · rw [splitFrom]
    exact fun _ same _ => colon same

/-- A text whose colons are all inside of brackets is kept as a whole. -/
theorem splitFrom_append {text : List Char}
    (nested : ∀ front, front ++ [':'] <+: text → Text.nestingAfter depth front ≠ 0)
    (pending rest : List Char) :
    splitFrom depth pending (text ++ rest) =
      splitFrom (Text.nestingAfter depth text) (pending ++ text) rest := by
  induction text generalizing depth pending with
  | nil => simp
  | cons c text further =>
    have plain : c = ':' → depth ≠ 0 := by
      rintro rfl
      exact nested [] (by simp)
    have nestedBehind : ∀ front, front ++ [':'] <+: text →
        Text.nestingAfter (Text.nestingStep depth c) front ≠ 0 := fun front isPrefix =>
      nested (c :: front) ((List.prefix_cons_inj c).mpr isPrefix)
    rw [List.cons_append, splitFrom_cons _ _ plain, further nestedBehind, Text.nestingAfter_cons,
      List.append_assoc, List.singleton_append]

/-- A separator outside of brackets ends a segment. -/
theorem splitFrom_separator (pending rest : List Char) :
    splitFrom 0 pending (':' :: ':' :: rest) = segmentOf pending ++ splitFrom 0 [] rest := by
  rw [splitFrom, if_pos rfl]

/-- A trimmed text is taken as one segment as it stands. -/
theorem IsTrimmed.segmentOf_eq {segment : String} (trimmed : IsTrimmed segment) :
    segmentOf segment.toList = [segment] := by
  rw [segmentOf, Text.trim_eq_self trimmed.first_inked trimmed.last_inked,
    if_neg (by simpa using trimmed.nonempty), String.ofList_toList]

end Scanning

end ScopedName

namespace Spelling

/-- The characters of a qualified name. -/
def joined : List String → List Char
  | [] => []
  | [segment] => segment.toList
  | segment :: next :: rest => segment.toList ++ ':' :: ':' :: joined (next :: rest)

/-- Segments put together with separators have the characters of those joined. -/
theorem toList_intercalate (segments : List String) :
    ("::".intercalate segments).toList = joined segments := by
  induction segments using joined.induct with
  | case1 => rfl
  | case2 segment => rw [String.intercalate_singleton, joined]
  | case3 segment next rest further =>
    rw [String.intercalate_cons_cons, String.toList_append, String.toList_append, further, joined]
    simp

/-- A name consists of the characters of its segments and of separators. -/
theorem mem_joined {segments : List String} {c : Char} (member : c ∈ joined segments) :
    c = ':' ∨ ∃ segment ∈ segments, c ∈ segment.toList := by
  induction segments using joined.induct with
  | case1 => cases member
  | case2 segment => exact .inr ⟨segment, List.mem_cons_self, member⟩
  | case3 segment next rest further =>
    simp only [joined, List.mem_append, List.mem_cons] at member
    rcases member with own | rfl | rfl | inRest
    · exact .inr ⟨segment, List.mem_cons_self, own⟩
    · exact .inl rfl
    · exact .inl rfl
    · refine (further inRest).imp_right ?_
      rintro ⟨other, listed, inside⟩
      exact ⟨other, List.mem_cons_of_mem _ listed, inside⟩

/-- A name starts as one of its segments does. -/
theorem exists_head?_of_joined {segments : List String}
    (nonempty : ∀ segment ∈ segments, segment.toList ≠ []) {c : Char}
    (first : c ∈ (joined segments).head?) : ∃ segment ∈ segments, c ∈ segment.toList.head? := by
  cases segments with
  | nil => cases first
  | cons segment rest =>
    refine ⟨segment, List.mem_cons_self, ?_⟩
    cases rest with
    | nil => exact first
    | cons next rest =>
      have start := nonempty segment List.mem_cons_self
      rw [joined, List.head?_append_of_ne_nil _ start] at first
      exact first

/-- A name ends as one of its segments does. -/
theorem exists_getLast?_of_joined {segments : List String}
    (nonempty : ∀ segment ∈ segments, segment.toList ≠ []) {c : Char}
    (last : c ∈ (joined segments).getLast?) :
    ∃ segment ∈ segments, c ∈ segment.toList.getLast? := by
  induction segments using joined.induct with
  | case1 => cases last
  | case2 segment => exact ⟨segment, List.mem_cons_self, last⟩
  | case3 segment next rest further =>
    have behind : joined (next :: rest) ≠ [] := by
      have start := nonempty next (by simp)
      cases rest <;> simp [joined, start]
    rw [joined, ← List.singleton_append, ← List.singleton_append (l := joined _),
      ← List.append_assoc, ← List.append_assoc, List.getLast?_append_of_ne_nil _ behind] at last
    obtain ⟨other, listed, ends⟩ :=
      further (fun other member => nonempty other (List.mem_cons_of_mem _ member)) last
    exact ⟨other, List.mem_cons_of_mem _ listed, ends⟩

end Spelling

namespace ScopedName

open Spelling

/-- A name with segments is displayed as those joined. -/
theorem toList_display {name : ScopedName} (nonempty : name.segments ≠ []) :
    name.display.toList = joined name.segments := by
  have notGlobal : name.isGlobal = false := by simpa [isGlobal] using nonempty
  rw [display, notGlobal, if_neg Bool.false_ne_true, toList_intercalate]

/-- Segments are cut where they were joined. -/
theorem splitFrom_joined {segments : List String} (nonempty : segments ≠ [])
    (isSegment : ∀ segment ∈ segments, IsSegment segment)
    (closed : ∀ segment ∈ segments.dropLast, Text.nestingAfter 0 segment.toList = 0) :
    splitFrom 0 [] (joined segments) = segments := by
  induction segments using joined.induct with
  | case1 => exact absurd rfl nonempty
  | case2 segment =>
    have own := isSegment segment List.mem_cons_self
    have whole := splitFrom_append own.colons_nested [] []
    rw [List.append_nil, List.nil_append] at whole
    rw [joined, whole, splitFrom, own.segmentOf_eq]
  | case3 segment next rest further =>
    have own := isSegment segment List.mem_cons_self
    rw [joined, splitFrom_append own.colons_nested, closed segment (by simp), List.nil_append,
      splitFrom_separator, own.segmentOf_eq, further (List.cons_ne_nil next rest)
        (fun other listed => isSegment other (List.mem_cons_of_mem _ listed))
        (fun other listed => closed other (by simp [listed]))]
    rfl

namespace Readable

variable {name : ScopedName} (readable : name.Readable)

include readable

/-- A written name has no blanks at its ends, be it with a separator in front. -/
theorem trim_display : Text.trim name.display.toList = name.display.toList ∧
    Text.trim ("::" ++ name.display).toList = ("::" ++ name.display).toList := by
  have segmentsNonempty : ∀ segment ∈ name.segments, segment.toList ≠ [] := fun segment listed =>
    (readable.segment segment listed).nonempty
  have lastInked : ∀ c ∈ (joined name.segments).getLast?, Text.isBlank c = false := by
    intro c last
    obtain ⟨segment, listed, ends⟩ := exists_getLast?_of_joined segmentsNonempty last
    exact (readable.segment segment listed).last_inked c ends
  rw [String.toList_append, toList_display readable.nonempty]
  constructor
  · refine Text.trim_eq_self (fun c first => ?_) lastInked
    obtain ⟨segment, listed, starts⟩ := exists_head?_of_joined segmentsNonempty first
    exact (readable.segment segment listed).first_inked c starts
  · refine Text.trim_eq_self (fun c first => ?_) fun c last => ?_
    · cases (show some ':' = some c from first)
      decide
    · cases behind : joined name.segments with
      | nil =>
        rw [behind] at last
        cases (show some ':' = some c from last)
        decide
      | cons next rest =>
        rw [List.getLast?_append_of_ne_nil _ (by simp [behind])] at last
        exact lastInked c last

/-- The display of a readable name is read as that name. -/
theorem ofSpelling_display : ofSpelling name.display = name := by
  rw [ofSpelling, readable.trim_display.1, toList_display readable.nonempty,
    splitFrom_joined readable.nonempty readable.segment readable.closed]

/-- A separator in front is no part of the name. -/
theorem ofSpelling_rooted : ofSpelling ("::" ++ name.display) = name := by
  have behind := splitFrom_joined readable.nonempty readable.segment readable.closed
  rw [ofSpelling, readable.trim_display.2, String.toList_append,
    toList_display readable.nonempty]
  show ScopedName.mk (splitFrom 0 [] (':' :: ':' :: joined name.segments)) = name
  rw [splitFrom_separator, behind]
  rfl

end Readable

/-- A name whose segments can be told from each other is read back from what is written for it,
segment by segment, be it with a separator in front. -/
theorem ofSpelling_written {name : ScopedName} (readable : name.Readable) :
    ofSpelling name.display = name ∧ ofSpelling ("::" ++ name.display) = name :=
  ⟨readable.ofSpelling_display, readable.ofSpelling_rooted⟩

/-- Separators inside of template arguments and in the name of an unnamed namespace do not cut, and
a last segment may leave a bracket open. -/
theorem ofSpelling_written_brackets :
    let name : ScopedName := ⟨["std", "map<a::b, c>", "(anonymous src/a::b.cpp)", "operator<"]⟩
    name.Readable ∧ name.display = "std::map<a::b, c>::(anonymous src/a::b.cpp)::operator<" ∧
      ofSpelling "std::map<a::b, c>::(anonymous src/a::b.cpp)::operator<" = name ∧
      ofSpelling "::std::map<a::b, c>::(anonymous src/a::b.cpp)::operator<" = name := by
  intro name
  have readable : name.Readable := by decide +kernel
  have display : name.display = "std::map<a::b, c>::(anonymous src/a::b.cpp)::operator<" := by
    decide +kernel
  obtain ⟨plain, rooted⟩ := ofSpelling_written readable
  rw [display] at plain rooted
  exact ⟨readable, display, plain, rooted⟩

end ScopedName

end DeclGraph
