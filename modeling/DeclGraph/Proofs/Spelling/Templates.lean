import DeclGraph.Proofs.Spelling.ArgumentLists

/-!
# Names with template arguments

Of a qualified name with template argument lists the names of its segments are left, unless a list
is there and the spelling holds the keyword of operators, be it inside of a longer word: then
nothing is left out. The arguments of a list are read one by one, and an argument is read as it was
written if and only if no comma of it stands outside of its angle brackets; parentheses do not
keep a comma from ending an argument.
-/

namespace DeclGraph

namespace Text

variable {text : List Char} {c : Char}

/-- Trimming takes away blanks at the ends. -/
theorem exists_blanks_around_trim (text : List Char) :
    ∃ front back, text = front ++ (trim text ++ back) ∧ (∀ c ∈ front, isBlank c) ∧
      ∀ c ∈ back, isBlank c := by
  refine ⟨text.takeWhile isBlank, ((text.dropWhile isBlank).reverse.takeWhile isBlank).reverse,
    ?_, fun c => List.mem_takeWhile_imp, fun c member => ?_⟩
  · rw [trim, ← List.reverse_append, List.takeWhile_append_dropWhile, List.reverse_reverse,
      List.takeWhile_append_dropWhile]
  · exact List.mem_takeWhile_imp (List.mem_reverse.mp member)

/-- Trimming a text adds no characters. -/
theorem mem_of_mem_trim (member : c ∈ trim text) : c ∈ text := by
  obtain ⟨front, back, whole, -, -⟩ := exists_blanks_around_trim text
  rw [whole]
  simp [member]

/-- What is no blank is not trimmed. -/
theorem mem_trim_of_inked (member : c ∈ text) (inked : isBlank c = false) : c ∈ trim text := by
  obtain ⟨front, back, whole, frontBlank, backBlank⟩ := exists_blanks_around_trim text
  rw [whole] at member
  rcases List.mem_append.mp member with inFront | member
  · simp [frontBlank c inFront] at inked
  rcases List.mem_append.mp member with kept | inBack
  · exact kept
  · simp [backBlank c inBack] at inked

/-- A mark that is no blank is none. -/
theorem ne_of_isBlank {mark : Char} (blank : isBlank c) (inked : isBlank mark = false) :
    c ≠ mark := by
  rintro rfl
  rw [inked] at blank
  cases blank

/-- A blank in front is trimmed. -/
theorem trim_blank_cons (blank : isBlank c) : trim (c :: text) = trim text := by
  simp [trim, blank]

end Text

namespace Spelling

-- The test goes over the characters of the text, and not over all characters there are.
/-- A text that was checked for brackets has none. -/
theorem plain_of_all {text : List Char} (all : text.all fun c => c != '<' && c != '>') :
    ∀ c ∈ text, c ≠ '<' ∧ c ≠ '>' := by
  simpa using all

namespace Closed

variable {barred other text : List Char} {c : Char}

/-- A text that closes more angle brackets than it opens is a closed text and, for each bracket
that it closes more, another one behind it. -/
theorem exists_of_counts {depth : Nat}
    (opened : ∀ front, front <+: text → front.count '>' ≤ front.count '<' + depth)
    (settled : text.count '>' = text.count '<' + depth) :
    ∃ (inner : List Char) (parts : List (List Char)), Closed [] inner ∧
      (∀ part ∈ parts, Closed [] part) ∧ parts.length = depth ∧
      text = inner ++ parts.flatMap ('>' :: ·) := by
  induction text generalizing depth with
  | nil =>
    have closes : depth = 0 := by simpa using settled.symm
    exact ⟨[], [], .nothing, List.forall_mem_nil _, closes.symm, rfl⟩
  | cons c text further =>
    have behind : ∀ front, front <+: text →
        (c :: front).count '>' ≤ (c :: front).count '<' + depth := fun front isPrefix =>
      opened (c :: front) (List.cons_prefix_cons.mpr ⟨rfl, isPrefix⟩)
    simp only [List.count_cons] at behind settled
    -- A bracket that opens takes the first of the parts with it, one that closes makes a part.
    by_cases opening : c = '<'
    · subst opening
      obtain ⟨inner, parts, closed, allClosed, levels, rfl⟩ := @further (depth + 1)
        (fun front isPrefix => by
          simpa [Nat.add_right_comm, Nat.add_assoc] using behind front isPrefix)
        (by simpa [Nat.add_right_comm, Nat.add_assoc] using settled)
      match parts, levels with
      | part :: parts, levels =>
        rw [List.forall_mem_cons] at allClosed
        exact ⟨'<' :: (inner ++ '>' :: part), parts, closed.nested allClosed.1, allClosed.2,
          Nat.succ.inj levels, by simp⟩
    by_cases closing : c = '>'
    · subst closing
      have closes : 1 ≤ depth := by simpa using behind [] List.nil_prefix
      obtain ⟨less, rfl⟩ := Nat.exists_eq_succ_of_ne_zero (Nat.ne_of_gt closes)
      obtain ⟨inner, parts, closed, allClosed, levels, rfl⟩ := @further less
        (fun front isPrefix => by simpa [← Nat.add_assoc] using behind front isPrefix)
        (by simpa [← Nat.add_assoc] using settled)
      exact ⟨[], inner :: parts, .nothing, List.forall_mem_cons.mpr ⟨closed, allClosed⟩,
        congrArg (· + 1) levels, by simp⟩
    · obtain ⟨inner, parts, closed, allClosed, levels, rfl⟩ := @further depth
        (fun front isPrefix => by simpa [opening, closing] using behind front isPrefix)
        (by simpa [opening, closing] using settled)
      exact ⟨c :: inner, parts, closed.other ⟨opening, closing⟩ List.not_mem_nil, allClosed,
        levels, rfl⟩

/-- The angle brackets of a text are closed if it never closes more than it has opened and, at its
end, has closed all. -/
theorem of_counts (opened : ∀ front, front <+: text → front.count '>' ≤ front.count '<')
    (settled : text.count '<' = text.count '>') : Closed [] text := by
  obtain ⟨inner, parts, closed, -, levels, rfl⟩ := @exists_of_counts text 0 opened settled.symm
  rwa [List.length_eq_zero_iff.mp levels, List.flatMap_nil, List.append_nil]

/-- A text whose brackets of all kinds are balanced closes its angle brackets. -/
theorem of_balanced (balanced : Text.Balanced text) : Closed [] text :=
  of_counts (balanced.opened_first ('<', '>') (by decide))
    (balanced.all_closed ('<', '>') (by decide))

/-- No barred mark stands outside the argument lists of a closed text. -/
theorem notMem_outsideArguments (closed : Closed barred text) (isBarred : c ∈ barred) :
    c ∉ outsideArguments 0 text := by
  induction closed with
  | nothing => exact List.not_mem_nil
  | other noBracket free _ further =>
    rw [outsideArguments, if_neg noBracket.1, if_neg noBracket.2, if_pos rfl, List.mem_cons]
    rintro (rfl | behind)
    · exact free isBarred
    · exact further isBarred behind
  | nested inside _ _ further =>
    rw [inside.outsideArguments_list]
    exact further isBarred

/-- What does not stand outside the argument lists of a closed text may be barred. -/
theorem of_notMem_outsideArguments (closed : Closed other text)
    (free : ∀ c ∈ barred, c ∉ outsideArguments 0 text) : Closed barred text := by
  induction closed with
  | nothing => exact .nothing
  | other noBracket _ _ further =>
    rw [outsideArguments, if_neg noBracket.1, if_neg noBracket.2, if_pos rfl] at free
    exact (further fun c isBarred behind =>
      free c isBarred (List.mem_cons_of_mem _ behind)).other noBracket fun isBarred =>
        free _ isBarred List.mem_cons_self
  | nested inside _ _ further =>
    rw [inside.outsideArguments_list] at free
    exact inside.nested (further free)

/-- A closed text is made of parts between the commas outside of its angle brackets. -/
theorem exists_parts (closed : Closed barred text) : ∃ first rest,
    (∀ part ∈ first :: rest, Closed [','] part) ∧ text = [','].intercalate (first :: rest) := by
  have longer : ∀ (front first : List Char) (rest : List (List Char)),
      front ++ [','].intercalate (first :: rest) =
        [','].intercalate ((front ++ first) :: rest) := by
    intro front first rest
    cases rest <;> simp
  induction closed with
  | nothing => exact ⟨[], [], List.forall_mem_singleton.mpr .nothing, rfl⟩
  | @other _ text c noBracket _ _ further =>
    obtain ⟨first, rest, free, rfl⟩ := further
    by_cases comma : c = ','
    · exact ⟨[], first :: rest, List.forall_mem_cons.mpr ⟨.nothing, free⟩, by
        rw [comma, List.intercalate_cons_cons]; rfl⟩
    · rw [List.forall_mem_cons] at free
      exact ⟨c :: first, rest, List.forall_mem_cons.mpr
        ⟨free.1.other noBracket (by simpa using comma), free.2⟩, longer [c] first rest⟩
  | @nested _ inner text inside _ _ further =>
    obtain ⟨first, rest, free, rfl⟩ := further
    rw [List.forall_mem_cons] at free
    refine ⟨'<' :: (inner ++ '>' :: first), rest,
      List.forall_mem_cons.mpr ⟨inside.nested free.1, free.2⟩, ?_⟩
    simpa using longer ('<' :: (inner ++ ['>'])) first rest

end Closed

/-- A segment of a qualified name as it is spelled: a name and, behind some, a template argument
list, with blanks behind it. -/
structure SpelledSegment where
  name : String
  arguments? : Option String
  gap : String

namespace SpelledSegment

/-- The segment with its arguments in angle brackets. -/
def text (segment : SpelledSegment) : String :=
  segment.name ++ (segment.arguments?.elim "" fun list => "<" ++ list ++ ">") ++ segment.gap

/-- The segment without its arguments. -/
def plain (segment : SpelledSegment) : String := segment.name ++ segment.gap

/-- No angle bracket of a segment stands outside of its argument list, and the list closes every
one in it. -/
structure IsBalanced (segment : SpelledSegment) : Prop where
  name_plain : ∀ c ∈ segment.name.toList, c ≠ '<' ∧ c ≠ '>'
  closed : ∀ list ∈ segment.arguments?, Closed [] list.toList
  gap_plain : ∀ c ∈ segment.gap.toList, c ≠ '<' ∧ c ≠ '>'

variable {segment : SpelledSegment}

/-- Of a segment its name is left. -/
theorem IsBalanced.outsideArguments_text (balanced : segment.IsBalanced) (rest : List Char) :
    outsideArguments 0 (segment.text.toList ++ rest) =
      segment.plain.toList ++ outsideArguments 0 rest := by
  have list : outsideArguments 0 ((segment.arguments?.elim "" fun list =>
      "<" ++ list ++ ">").toList ++ (segment.gap.toList ++ rest)) =
        outsideArguments 0 (segment.gap.toList ++ rest) := by
    have closed := balanced.closed
    cases listed : segment.arguments? with
    | none => rfl
    | some list =>
      simp only [Option.elim_some, String.toList_append, List.append_assoc]
      show outsideArguments 0 ('<' :: (list.toList ++ '>' :: _)) = _
      exact (closed list listed).outsideArguments_list 0 _
  rw [text, plain, String.toList_append, String.toList_append, String.toList_append,
    List.append_assoc, List.append_assoc, outsideArguments_append_plain balanced.name_plain, list,
    outsideArguments_append_plain balanced.gap_plain, List.append_assoc]

end SpelledSegment

/-- The spelling of a qualified name. -/
def spelledPath (path : List SpelledSegment) : String := "::".intercalate (path.map (·.text))

/-- The name alone. -/
def plainPath (path : List SpelledSegment) : String := "::".intercalate (path.map (·.plain))

/-- The name has template arguments, and some word of its spelling has the keyword of operators in
it, the words of the arguments included. -/
def KeepsArguments (path : List SpelledSegment) : Prop :=
  SpeaksOfOperator (tokens (spelledPath path)) ∧ ∃ segment ∈ path, segment.arguments? ≠ none

section Paths

variable {path : List SpelledSegment}

/-- A qualified name is spelled as its segments joined. -/
theorem toList_spelledPath (path : List SpelledSegment) :
    (spelledPath path).toList = joined (path.map (·.text)) := toList_intercalate _

/-- The name alone is spelled as its plain segments joined. -/
theorem toList_plainPath (path : List SpelledSegment) :
    (plainPath path).toList = joined (path.map (·.plain)) := toList_intercalate _

/-- Of a qualified name its segments without their arguments are left. -/
theorem outsideArguments_spelledPath (balanced : ∀ segment ∈ path, segment.IsBalanced) :
    outsideArguments 0 (spelledPath path).toList = (plainPath path).toList := by
  rw [toList_spelledPath, toList_plainPath]
  induction path with
  | nil => rfl
  | cons segment path further =>
    rw [List.forall_mem_cons] at balanced
    cases path with
    | nil => simpa [joined, outsideArguments] using balanced.1.outsideArguments_text []
    | cons next rest =>
      rw [joined_map_cons_cons, joined_map_cons_cons, balanced.1.outsideArguments_text,
        outsideArguments_append_plain plain_separator, further balanced.2]

/-- The plain text of a segment has no brackets. -/
theorem SpelledSegment.IsBalanced.plain_plain {segment : SpelledSegment}
    (balanced : segment.IsBalanced) : ∀ c ∈ segment.plain.toList, c ≠ '<' ∧ c ≠ '>' := by
  rw [SpelledSegment.plain, String.toList_append, List.forall_mem_append]
  exact ⟨balanced.name_plain, balanced.gap_plain⟩

/-- The name alone has no brackets. -/
theorem plain_plainPath (balanced : ∀ segment ∈ path, segment.IsBalanced) :
    ∀ c ∈ (plainPath path).toList, c ≠ '<' ∧ c ≠ '>' := by
  intro c member
  rw [toList_plainPath] at member
  rcases mem_joined member with rfl | ⟨text, listed, own⟩
  · decide
  · obtain ⟨segment, ofPath, rfl⟩ := List.mem_map.mp listed
    exact (balanced segment ofPath).plain_plain c own

/-- A name without arguments is spelled as the name alone. -/
theorem spelledPath_eq_plainPath (bare : ∀ segment ∈ path, segment.arguments? = none) :
    spelledPath path = plainPath path := by
  refine congrArg _ (List.map_congr_left fun segment member => ?_)
  rw [SpelledSegment.text, SpelledSegment.plain, bare segment member]
  simp

/-- The characters of each segment are characters of the name. -/
theorem mem_joined_of_mem {segments : List String} {segment : String} {c : Char}
    (listed : segment ∈ segments) (member : c ∈ segment.toList) : c ∈ joined segments := by
  induction segments using joined.induct with
  | case1 => cases listed
  | case2 only => rwa [joined, ← List.mem_singleton.mp listed]
  | case3 first next rest further =>
    rw [joined]
    rcases List.mem_cons.mp listed with rfl | behind
    · exact List.mem_append_left _ member
    · exact List.mem_append_right _ (by simp [further behind])

/-- Where a segment has arguments, the spelling has a bracket. -/
theorem opening_mem_spelledPath {segment : SpelledSegment} (listed : segment ∈ path)
    (hasList : segment.arguments? ≠ none) : '<' ∈ (spelledPath path).toList := by
  obtain ⟨list, isList⟩ := Option.ne_none_iff_exists'.mp hasList
  rw [toList_spelledPath]
  refine mem_joined_of_mem (List.mem_map_of_mem listed) ?_
  simp [SpelledSegment.text, isList]

/-- The keyword of operators occurs in a spelling where it occurs in a word of it. -/
theorem occursIn_operator_iff_tokens {spelling : String} :
    Text.occursIn "operator".toList spelling.toList = true ↔
      SpeaksOfOperator (tokens spelling) := by
  have letters : ∀ c ∈ "operator".toList, isWordChar c := List.all_eq_true.mp (by decide)
  have noKeyword : ∀ word ∈ elaboratedWords,
      Text.occursIn "operator".toList word.toList = false := by decide
  rw [Text.occursIn_iff, (spells_iff.mpr rfl).infix_iff (by decide) letters, SpeaksOfOperator]
  refine exists_congr fun word => and_congr_left fun occurs => ?_
  rw [tokens, List.mem_filter, and_iff_left]
  by_contra elaborated
  have keyword : word ∈ elaboratedWords := by simpa [Token.isElaborated] using elaborated
  rw [← Text.occursIn_iff, noKeyword word keyword] at occurs
  cases occurs

/-- A name that keeps its arguments is only trimmed. -/
theorem withoutArguments_of_keepsArguments (keeps : KeepsArguments path) :
    withoutArguments (spelledPath path) = String.ofList (Text.trim (spelledPath path).toList) := by
  rw [withoutArguments, if_pos (occursIn_operator_iff_tokens.mpr keeps.1)]

/-- Any other name loses all of its argument lists. -/
theorem withoutArguments_of_not_keepsArguments (balanced : ∀ segment ∈ path, segment.IsBalanced)
    (drops : ¬ KeepsArguments path) :
    withoutArguments (spelledPath path) = String.ofList (Text.trim (plainPath path).toList) := by
  rw [withoutArguments, outsideArguments_spelledPath balanced]
  split
  · rename_i occurs
    rw [spelledPath_eq_plainPath]
    intro segment listed
    by_contra hasList
    exact drops ⟨occursIn_operator_iff_tokens.mp occurs, segment, listed, hasList⟩
  · rfl

/-- A balanced spelling of a qualified name loses all of its template arguments, and with them all
of its angle brackets, unless it has such arguments and some word in it has the keyword of
operators in it. Then the spelling is kept as it is. -/
theorem withoutArguments_spelledPath (balanced : ∀ segment ∈ path, segment.IsBalanced) :
    (withoutArguments (spelledPath path) = String.ofList (Text.trim (plainPath path).toList) ↔
        ¬ KeepsArguments path) ∧
      ((∀ c ∈ (withoutArguments (spelledPath path)).toList, c ≠ '<' ∧ c ≠ '>') ↔
        ¬ KeepsArguments path) ∧
      (KeepsArguments path → withoutArguments (spelledPath path) =
        String.ofList (Text.trim (spelledPath path).toList)) ∧
      ((∀ segment ∈ path, ∀ c ∈ segment.plain.toList, Text.isBlank c = false) →
        Text.trim (plainPath path).toList = (plainPath path).toList) := by
  have plain : ∀ c ∈ (String.ofList (Text.trim (plainPath path).toList)).toList,
      c ≠ '<' ∧ c ≠ '>' := by
    rw [String.toList_ofList]
    exact fun c member => plain_plainPath balanced c (Text.mem_of_mem_trim member)
  have opening : KeepsArguments path → '<' ∈ (withoutArguments (spelledPath path)).toList := by
    rintro ⟨speaks, segment, listed, hasList⟩
    rw [withoutArguments_of_keepsArguments ⟨speaks, segment, listed, hasList⟩,
      String.toList_ofList]
    exact Text.mem_trim_of_inked (opening_mem_spelledPath listed hasList) (by decide)
  have drops := withoutArguments_of_not_keepsArguments balanced
  refine ⟨⟨fun same keeps => ?_, drops⟩, ⟨fun none keeps => (none '<' (opening keeps)).1 rfl,
    fun dropped => drops dropped ▸ plain⟩, withoutArguments_of_keepsArguments, fun inked => ?_⟩
  · exact (plain '<' (same ▸ opening keeps)).1 rfl
  · have all : ∀ c ∈ (plainPath path).toList, Text.isBlank c = false := by
      intro c member
      rw [toList_plainPath] at member
      rcases mem_joined member with rfl | ⟨text, listed, own⟩
      · decide
      · obtain ⟨segment, ofPath, rfl⟩ := List.mem_map.mp listed
        exact inked segment ofPath c own
    exact Text.trim_eq_self (fun c first => all c (List.mem_of_mem_head? first))
      fun c last => all c (List.mem_of_mem_getLast? last)

/-- Arguments in the middle of a name, with a list in a list. -/
def iteratorPath : List SpelledSegment :=
  [⟨"std", none, ""⟩, ⟨"map", some "int, std::vector<int>", ""⟩, ⟨"iterator", none, ""⟩]

/-- The arguments of every segment are left out, not those of the last alone. -/
theorem withoutArguments_spelledPath_iterator :
    (∀ segment ∈ iteratorPath, segment.IsBalanced) ∧
      spelledPath iteratorPath = "std::map<int, std::vector<int>>::iterator" ∧
      ¬ KeepsArguments iteratorPath ∧
      withoutArguments "std::map<int, std::vector<int>>::iterator" = "std::map::iterator" := by
  have closed : Closed [] "int, std::vector<int>".toList := .of_balanced (by decide)
  have balanced : ∀ segment ∈ iteratorPath, segment.IsBalanced := by
    simp only [iteratorPath, List.forall_mem_cons]
    exact ⟨⟨plain_of_all (by decide), nofun, by simp⟩,
      ⟨plain_of_all (by decide), by rintro _ ⟨⟩; exact closed, by simp⟩,
      ⟨plain_of_all (by decide), nofun, by simp⟩, by simp⟩
  have spelled : spelledPath iteratorPath = "std::map<int, std::vector<int>>::iterator" := by
    decide +kernel
  have drops : ¬ KeepsArguments iteratorPath := by
    rintro ⟨speaks, -⟩
    rw [spelled, ← occursIn_operator_iff_tokens] at speaks
    exact absurd speaks (by decide +kernel)
  obtain ⟨whole, -⟩ := withoutArguments_spelledPath balanced
  rw [spelled] at whole
  exact ⟨balanced, spelled, drops, (whole.mpr drops).trans (by decide +kernel)⟩

/-- A name keeps its arguments for a word that is not the keyword of operators, but has it in it. -/
theorem longer_word_keeps_arguments :
    (SpelledSegment.mk "my_operator" (some "int") "").IsBalanced ∧
      spelledPath [⟨"my_operator", some "int", ""⟩] = "my_operator<int>" ∧
      plainPath [⟨"my_operator", some "int", ""⟩] = "my_operator" ∧
      .word "operator" ∉ tokens "my_operator<int>" ∧
      withoutArguments "my_operator<int>" = "my_operator<int>" := by
  refine ⟨⟨plain_of_all (by decide), ?_, by simp⟩, by decide +kernel⟩
  rintro _ ⟨⟩
  exact .of_balanced (by decide)

end Paths

section Listed

/-- What follows a text is not needed to tell what stands outside of its argument lists. -/
theorem outsideArguments_begins (depth : Nat) (text rest : List Char) :
    outsideArguments depth text <+: outsideArguments depth (text ++ rest) := by
  fun_induction outsideArguments depth text with
  | case1 => exact List.nil_prefix
  | case2 depth text further => simpa [outsideArguments] using further
  | case3 depth text noOpening further => simpa [outsideArguments] using further
  | case4 c text noOpening noClosing further =>
    simpa [outsideArguments, noOpening, noClosing] using further
  | case5 depth c text noOpening noClosing inside further =>
    simpa [outsideArguments, noOpening, noClosing, inside] using further

/-- What stands outside the argument lists of a trimmed text does so in the text. -/
theorem mem_outsideArguments_of_trim {text : List Char} {c : Char}
    (member : c ∈ outsideArguments 0 (Text.trim text)) : c ∈ outsideArguments 0 text := by
  obtain ⟨front, back, whole, frontBlank, -⟩ := Text.exists_blanks_around_trim text
  have plain : ∀ c ∈ front, c ≠ '<' ∧ c ≠ '>' := fun c inFront =>
    ⟨Text.ne_of_isBlank (frontBlank c inFront) (by decide),
      Text.ne_of_isBlank (frontBlank c inFront) (by decide)⟩
  rw [whole, outsideArguments_append_plain plain]
  exact List.mem_append_right _ ((outsideArguments_begins 0 _ back).subset member)

/-- Blanks in front of an argument are not collected. -/
theorem argumentsFrom_blank {c : Char} (blank : Text.isBlank c) (depth : Nat)
    (pending text : List Char) :
    argumentsFrom depth (c :: pending) text = argumentsFrom depth pending text := by
  have same : ∀ pending, argumentOf (c :: pending) = argumentOf pending := fun pending => by
    rw [argumentOf, argumentOf, Text.trim_blank_cons blank]
  induction text generalizing depth pending with
  | nil => rfl
  | cons next text further =>
    have kept : ∀ next deeper, argumentsFrom deeper
        (if depth = 0 then c :: pending else c :: pending ++ [next]) text =
          argumentsFrom deeper (if depth = 0 then pending else pending ++ [next]) text := by
      intro next deeper
      split <;> exact further _ _
    unfold argumentsFrom
    rw [same, kept, kept, List.cons_append, further]

/-- A blank in front of an argument is passed over. -/
theorem argumentsFrom_blank_cons (rest : List Char) :
    argumentsFrom 1 [] (' ' :: rest) = argumentsFrom 1 [] rest := by
  rw [argumentsFrom, if_neg (by decide), if_neg (by decide), if_neg (by decide),
    if_neg Nat.one_ne_zero, List.nil_append, argumentsFrom_blank (by decide)]

/-- An argument list is read part by part, whatever stands between the commas. -/
theorem argumentsFrom_parts {first : List Char} {rest : List (List Char)}
    (free : ∀ part ∈ first :: rest, Closed [','] part) :
    argumentsFrom 1 [] ([','].intercalate (first :: rest) ++ ['>']) =
      (first :: rest).flatMap argumentOf := by
  induction rest generalizing first with
  | nil =>
    rw [List.intercalate_singleton, (free first List.mem_cons_self).argumentsFrom_append (by simp),
      argumentsFrom_closing]
    simp [argumentsFrom]
  | cons next rest further =>
    rw [List.forall_mem_cons] at free
    rw [List.intercalate_cons_cons, List.append_assoc, List.append_assoc,
      free.1.argumentsFrom_append (by simp), List.singleton_append, argumentsFrom_comma,
      further free.2, List.nil_append, List.flatMap_cons (x := first)]

end Listed

/-- A name with an argument list behind it. -/
def writtenList (name : String) (args : List String) : String :=
  name ++ "<" ++ ", ".intercalate args ++ ">"

/-- A text that can be an argument: it has no blanks at its ends, and its angle brackets are
closed. -/
structure IsArgument (argument : String) : Prop extends ScopedName.IsTrimmed argument where
  closed : Closed [] argument.toList

section Reading

variable {name : String} {args : List String} {argument : String}

/-- The arguments are read from behind the bracket that follows a name. -/
theorem arguments_writtenList (plain : ∀ c ∈ name.toList, c ≠ '<' ∧ c ≠ '>') :
    arguments (writtenList name args) =
      argumentsFrom 1 [] ((", ".intercalate args).toList ++ ['>']) := by
  have list : (writtenList name args).toList =
      name.toList ++ '<' :: ((", ".intercalate args).toList ++ ['>']) := by
    simp [writtenList]
  rw [arguments, list, argumentsFrom_append_plain plain, argumentsFrom_opening]

/-- A list of one argument is read from behind its bracket. -/
theorem arguments_single (argument : String) :
    arguments (writtenList "" [argument]) = argumentsFrom 1 [] (argument.toList ++ ['>']) := by
  rw [arguments_writtenList (by simp), String.intercalate_singleton]

/-- Each argument of a list is read as if it was written alone. -/
theorem argumentsFrom_intercalate (closed : ∀ argument ∈ args, Closed [] argument.toList) :
    argumentsFrom 1 [] ((", ".intercalate args).toList ++ ['>']) =
      args.flatMap fun argument => arguments (writtenList "" [argument]) := by
  induction args with
  | nil => decide
  | cons argument args further =>
    rw [List.forall_mem_cons] at closed
    cases args with
    | nil => rw [String.intercalate_singleton, List.flatMap_singleton, arguments_single]
    | cons next rest =>
      obtain ⟨found, kept, behind⟩ := closed.1.exists_argumentsFrom_one []
      have whole : (", ".intercalate (argument :: next :: rest)).toList ++ ['>'] =
          argument.toList ++ ',' :: ' ' :: ((", ".intercalate (next :: rest)).toList ++ ['>']) := by
        simp [String.intercalate_cons_cons]
      rw [whole, behind, argumentsFrom_comma, argumentsFrom_blank_cons, further closed.2,
        List.flatMap_cons (x := argument), arguments_single, behind, argumentsFrom_closing]
      simp [argumentsFrom]

/-- An argument is cut into the parts between its outer commas, and each of them is trimmed. -/
theorem IsArgument.exists_parts (isArgument : IsArgument argument) : ∃ parts,
    (∀ part ∈ parts, Closed [','] part) ∧ argument.toList = [','].intercalate parts ∧
      arguments (writtenList "" [argument]) = parts.flatMap argumentOf := by
  obtain ⟨first, rest, free, whole⟩ := isArgument.closed.exists_parts
  refine ⟨first :: rest, free, whole, ?_⟩
  rw [arguments_single, whole, argumentsFrom_parts free]

/-- What is read has no comma outside of its angle brackets. -/
theorem IsArgument.noComma_of_mem (isArgument : IsArgument argument) {part : String}
    (found : part ∈ arguments (writtenList "" [argument])) :
    ',' ∉ outsideArguments 0 part.toList := by
  obtain ⟨parts, free, -, reads⟩ := isArgument.exists_parts
  rw [reads, List.mem_flatMap] at found
  obtain ⟨text, listed, found⟩ := found
  rw [argumentOf] at found
  split at found
  · cases found
  · rw [List.mem_singleton.mp found, String.toList_ofList]
    exact fun comma => (free text listed).notMem_outsideArguments List.mem_cons_self
      (mem_outsideArguments_of_trim comma)

/-- An argument without a comma of its own is read as it stands. -/
theorem IsArgument.arguments_single_eq (isArgument : IsArgument argument)
    (noComma : ',' ∉ outsideArguments 0 argument.toList) :
    arguments (writtenList "" [argument]) = [argument] := by
  have free : Closed [','] argument.toList :=
    isArgument.closed.of_notMem_outsideArguments (by simpa using noComma)
  have whole : argumentOf argument.toList = [argument] := by
    rw [argumentOf, Text.trim_eq_self isArgument.first_inked isArgument.last_inked,
      if_neg (by simpa using isArgument.nonempty), String.ofList_toList]
  rw [arguments_single, free.argumentsFrom_append (by simp), List.nil_append,
    argumentsFrom_closing, whole]
  rfl

/-- Of a written argument list each argument is read by itself, cut at the commas outside of its
angle brackets. So the list is read as it was written if and only if no argument has such a
comma. -/
theorem arguments_writtenList_iff (plain : ∀ c ∈ name.toList, c ≠ '<' ∧ c ≠ '>')
    (isArgument : ∀ argument ∈ args, IsArgument argument) :
    (arguments (writtenList name args) = args ↔
        ∀ argument ∈ args, ',' ∉ outsideArguments 0 argument.toList) ∧
      arguments (writtenList name args) =
        args.flatMap (fun argument => arguments (writtenList "" [argument])) ∧
      ∀ argument ∈ args, ∃ parts, (∀ part ∈ parts, Closed [','] part) ∧
        argument.toList = [','].intercalate parts ∧
        arguments (writtenList "" [argument]) = parts.flatMap argumentOf := by
  have oneByOne : arguments (writtenList name args) =
      args.flatMap fun argument => arguments (writtenList "" [argument]) := by
    rw [arguments_writtenList plain,
      argumentsFrom_intercalate fun argument listed => (isArgument argument listed).closed]
  refine ⟨⟨fun same argument listed => ?_, fun noComma => ?_⟩, oneByOne,
    fun argument listed => (isArgument argument listed).exists_parts⟩
  · rw [← same, oneByOne, List.mem_flatMap] at listed
    obtain ⟨written, ofList, found⟩ := listed
    exact (isArgument written ofList).noComma_of_mem found
  · rw [oneByOne, List.flatMap_congr fun argument listed =>
      (isArgument argument listed).arguments_single_eq (noComma argument listed)]
    exact List.flatMap_singleton' args

/-- A list in an argument of a list. -/
theorem arguments_writtenList_iff_map :
    (∀ c ∈ "std::map".toList, c ≠ '<' ∧ c ≠ '>') ∧
      (∀ argument ∈ ["std::string", "std::pair<int, Person>"], IsArgument argument) ∧
      writtenList "std::map" ["std::string", "std::pair<int, Person>"] =
        "std::map<std::string, std::pair<int, Person>>" ∧
      arguments "std::map<std::string, std::pair<int, Person>>" =
        ["std::string", "std::pair<int, Person>"] := by
  have plain : ∀ c ∈ "std::map".toList, c ≠ '<' ∧ c ≠ '>' := plain_of_all (by decide)
  have isArgument : ∀ argument ∈ ["std::string", "std::pair<int, Person>"],
      IsArgument argument := by
    simp only [List.forall_mem_cons]
    exact ⟨⟨by decide, .of_balanced (by decide)⟩, ⟨by decide, .of_balanced (by decide)⟩, by simp⟩
  have written : writtenList "std::map" ["std::string", "std::pair<int, Person>"] =
      "std::map<std::string, std::pair<int, Person>>" := by decide +kernel
  have reads := (arguments_writtenList_iff plain isArgument).1.mpr (by decide +kernel)
  rw [written] at reads
  exact ⟨plain, isArgument, written, reads⟩

/-- A function type with two parameters is one argument in balanced brackets, but it is cut at the
comma between its parameters. -/
theorem function_argument_cut :
    IsArgument "void(int, int)" ∧ Text.Balanced "void(int, int)".toList ∧
      writtenList "std::function" ["void(int, int)"] = "std::function<void(int, int)>" ∧
      arguments "std::function<void(int, int)>" = ["void(int", "int)"] := by
  have balanced : Text.Balanced "void(int, int)".toList := by decide
  exact ⟨⟨by decide, .of_balanced balanced⟩, balanced, by decide +kernel⟩

end Reading

end Spelling

end DeclGraph
