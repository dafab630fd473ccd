import DeclGraph.Proofs.Spelling.ArgumentLists

/-!
# Places of qualifiers

A qualifier may stand in front of a named type or behind it and says the same in both places. Both
readings of a type agree on that as long as the last segment of the type has no template arguments.
Behind an argument list the canonical spelling has no blank, so the qualifier runs on from the last
word of the path once the arguments are left out, and the type that is found is another one. Only
where the spelling speaks of an operator are the arguments kept, and the qualifier with them.
-/

namespace DeclGraph

namespace Spelling

/-- A qualifier behind the path is read as a word of its own. -/
def KeepsApart (path : List PathSegment) : Prop :=
  EndsBare path ∨ SpeaksOfOperator (pathTokens path)

/-- The names of a path with a qualifier that has run on from the last of them. -/
def runOn (qualifier : String) : List String → List String
  | [] => []
  | [segment] => [segment ++ qualifier]
  | segment :: next :: rest => segment :: runOn qualifier (next :: rest)

section Moving

variable {qualifier : String} {front back : List Token} {one other : String}

/-- A token that a reading leaves out does not count, wherever it stands. -/
theorem filter_takeWhile_insert {α : Type} {passes keeps : α → Bool} {value : α}
    (passed : passes value) (dropped : keeps value = false) (front back : List α) :
    ((front ++ value :: back).takeWhile passes).filter keeps =
      ((front ++ back).takeWhile passes).filter keeps := by
  induction front with
  | nil => simp [passed, dropped]
  | cons first front further =>
    simp only [List.cons_append, List.takeWhile_cons]
    split
    · simp only [List.filter_cons, further]
    · rfl

/-- Which type is named depends on the words up to the first array and on whether there is a
function. -/
theorem namesType_congr {name : String} (functions : '(' ∈ one.toList ↔ '(' ∈ other.toList)
    (words : ((tokens one).takeWhile (· ≠ .mark '[')).filter Token.isOfName =
      ((tokens other).takeWhile (· ≠ .mark '[')).filter Token.isOfName) :
    NamesType one name ↔ NamesType other name := by
  constructor
  · rintro ⟨noFunction, written, nonempty, noNumber, noBuiltin⟩
    exact ⟨mt functions.mpr noFunction, words ▸ written, nonempty, noNumber, noBuiltin⟩
  · rintro ⟨noFunction, written, nonempty, noNumber, noBuiltin⟩
    exact ⟨mt functions.mp noFunction, words.symm ▸ written, nonempty, noNumber, noBuiltin⟩

/-- A qualifier that is a word of its own names nothing, wherever it stands. -/
theorem baseName?_of_moved (isQualifier : qualifier ∈ qualifierWords)
    (read : ∀ token ∈ front ++ back, token.IsRead)
    (onePlain : withoutArguments (canonical one) =
      String.ofList (render (.word qualifier :: (front ++ back))))
    (otherPlain : withoutArguments (canonical other) =
      String.ofList (render (front ++ .word qualifier :: back))) :
    baseName? one = baseName? other := by
  have readQualifier := isRead_qualifier isQualifier
  have oneRead : ∀ token ∈ .word qualifier :: (front ++ back), token.IsRead :=
    List.forall_mem_cons.mpr ⟨readQualifier, read⟩
  have otherRead : ∀ token ∈ front ++ .word qualifier :: back, token.IsRead := by
    simp only [List.forall_mem_append, List.forall_mem_cons] at read ⊢
    exact ⟨read.1, readQualifier, read.2⟩
  refine Option.ext fun name => ?_
  rw [baseName?_eq_some_iff, baseName?_eq_some_iff, onePlain, otherPlain]
  refine namesType_congr ?_ ?_
  · have written : ∀ {list : List Token}, (∀ token ∈ list, token.IsRead) →
        ('(' ∈ render list ↔ .mark '(' ∈ list) := fun read =>
      mark_mem_render_iff (fun token member => (read token member).legible) (by decide) (by decide)
    rw [String.toList_ofList, String.toList_ofList, written oneRead, written otherRead]
    simp
  · have dropped : (Token.word qualifier).isOfName = false := by
      simpa [Token.isOfName] using isQualifier
    have moved : ∀ before behind : List Token,
        ((before ++ .word qualifier :: behind).takeWhile (· ≠ .mark '[')).filter Token.isOfName =
          ((before ++ behind).takeWhile (· ≠ .mark '[')).filter Token.isOfName :=
      filter_takeWhile_insert (by simp) dropped
    rw [tokens_render oneRead, tokens_render otherRead, moved front back]
    exact moved [] (front ++ back)

end Moving

section Places

variable {path : List PathSegment} {rooted : Bool} {qualifier mark spelling : String}

/-- The marks that make a pointer or a reference of a named type. -/
def addressMarks : List String := ["", "*", "&"]

/-- A mark of a pointer or a reference may stand behind a path and is part of no name. -/
theorem tokens_addressMark (isMark : mark ∈ addressMarks) :
    (∀ token ∈ tokens mark, token.StandsAround) ∧ (∀ word, .word word ∉ tokens mark) ∧
      (tokens mark).filter Token.isOfName = [] ∧
      ∀ c ∈ mark.toList.head?, isWordChar c = false := by
  have lists : tokens "" = [] ∧ tokens "*" = [.mark '*'] ∧ tokens "&" = [.mark '&'] := by
    decide +kernel
  have noWord : isWordChar '*' = false ∧ isWordChar '&' = false := by decide
  have cases : mark = "" ∨ mark = "*" ∨ mark = "&" := by simpa [addressMarks] using isMark
  rcases cases with rfl | rfl | rfl
  · simp [lists]
  all_goals simp [lists, noWord, Token.standsAround_mark_iff, Token.isOfName]

/-- A qualifier in front is read as the first token. -/
theorem tokens_inFront (isQualifier : qualifier ∈ qualifierWords) (isMark : mark ∈ addressMarks) :
    tokens (qualifier ++ " " ++ spelling ++ mark) =
      .word qualifier :: (tokens spelling ++ tokens mark) := by
  rw [tokens_append fun _ _ _ => (tokens_addressMark isMark).2.2.2, tokens_append_blank,
    tokens_qualifier isQualifier]
  rfl

/-- A qualifier behind is read in front of the mark. -/
theorem tokens_behind (isQualifier : qualifier ∈ qualifierWords) (isMark : mark ∈ addressMarks) :
    tokens (spelling ++ " " ++ qualifier ++ mark) =
      tokens spelling ++ .word qualifier :: tokens mark := by
  rw [tokens_append fun _ _ _ => (tokens_addressMark isMark).2.2.2, tokens_append_blank,
    tokens_qualifier isQualifier, List.append_assoc]
  rfl

/-- A qualifier may stand in front of a path along with its root. -/
theorem around_inFront (isQualifier : qualifier ∈ qualifierWords) :
    ∀ token ∈ .word qualifier :: rootTokens rooted, token.StandsAround :=
  List.forall_mem_cons.mpr ⟨isQualifier, rootTokens_around rooted⟩

/-- A qualifier may stand behind a path along with a mark. -/
theorem around_behind (isQualifier : qualifier ∈ qualifierWords) (isMark : mark ∈ addressMarks) :
    ∀ token ∈ .word qualifier :: tokens mark, token.StandsAround :=
  List.forall_mem_cons.mpr ⟨isQualifier, (tokens_addressMark isMark).1⟩

section Reading

variable (isTypePath : IsTypePath path)
  (reads : tokens spelling = rootTokens rooted ++ pathTokens path)
  (isQualifier : qualifier ∈ qualifierWords) (isMark : mark ∈ addressMarks)

include reads isQualifier isMark

/-- A spelling with the qualifier in front is written in canonical form as one token more. -/
theorem canonical_inFront : canonical (qualifier ++ " " ++ spelling ++ mark) = String.ofList (render
    ((.word qualifier :: rootTokens rooted) ++ (pathTokens path ++ tokens mark))) := by
  rw [canonical, tokens_inFront isQualifier isMark, reads]
  simp

/-- A spelling with the qualifier behind is written in canonical form as one token more. -/
theorem canonical_behind : canonical (spelling ++ " " ++ qualifier ++ mark) = String.ofList (render
    (rootTokens rooted ++ (pathTokens path ++ .word qualifier :: tokens mark))) := by
  rw [canonical, tokens_behind isQualifier isMark, reads, List.append_assoc]

include isTypePath

/-- A qualifier that is read as a word of its own names the same type in both places. -/
theorem baseName?_of_keepsApart (kept : KeepsApart path) :
    baseName? (qualifier ++ " " ++ spelling ++ mark) =
      baseName? (spelling ++ " " ++ qualifier ++ mark) := by
  have markAround := (tokens_addressMark isMark).1
  have rootAround := rootTokens_around rooted
  have frontAround : ∀ token ∈ .word qualifier :: rootTokens rooted, token.StandsAround :=
    around_inFront isQualifier
  have backAround := around_behind isQualifier isMark
  have readPath := isRead_pathTokens isTypePath.writable
  by_cases ofOperator : SpeaksOfOperator (pathTokens path)
  · have read : ∀ token ∈ (rootTokens rooted ++ pathTokens path) ++ tokens mark, token.IsRead := by
      simpa using isRead_around rootAround markAround readPath
    refine baseName?_of_moved isQualifier read ?_ ?_
    · rw [canonical_inFront reads isQualifier isMark,
        withoutArguments_of_operator (isRead_around frontAround markAround readPath)
          ((speaksOfOperator_around_iff frontAround markAround).mpr ofOperator)]
      simp
    · rw [canonical_behind reads isQualifier isMark,
        withoutArguments_of_operator (isRead_around rootAround backAround readPath)
          ((speaksOfOperator_around_iff rootAround backAround).mpr ofOperator)]
      simp
  · have bare := kept.resolve_right ofOperator
    have readNames := isRead_nameTokens isTypePath.simple
    have read : ∀ token ∈ (rootTokens rooted ++ nameTokens (path.map (·.name))) ++ tokens mark,
        token.IsRead := by simpa using isRead_around rootAround markAround readNames
    refine baseName?_of_moved isQualifier read ?_ ?_
    · rw [canonical_inFront reads isQualifier isMark,
        withoutArguments_path isTypePath.writable frontAround markAround ofOperator (.inl bare)]
      simp
    · rw [canonical_behind reads isQualifier isMark,
        withoutArguments_path isTypePath.writable rootAround backAround ofOperator (.inl bare)]
      simp

/-- The arguments do not depend on the place of the qualifier. -/
theorem arguments_of_moved : arguments (canonical (qualifier ++ " " ++ spelling ++ mark)) =
    arguments (canonical (spelling ++ " " ++ qualifier ++ mark)) := by
  have frontAround : ∀ token ∈ .word qualifier :: rootTokens rooted, token.StandsAround :=
    around_inFront isQualifier
  have backAround := around_behind isQualifier isMark
  rw [arguments, arguments, canonical_inFront reads isQualifier isMark,
    canonical_behind reads isQualifier isMark, String.toList_ofList, String.toList_ofList,
    argumentsFrom_render isTypePath.writable frontAround (tokens_addressMark isMark).1,
    argumentsFrom_render isTypePath.writable (rootTokens_around rooted) backAround]

/-- Where the qualifier is kept apart, both places give the same references. -/
theorem references_of_keepsApart (kept : KeepsApart path) :
    references (qualifier ++ " " ++ spelling ++ mark) =
      references (spelling ++ " " ++ qualifier ++ mark) := by
  have sameBase := baseName?_of_keepsApart isTypePath reads isQualifier isMark kept
  have sameArguments := arguments_of_moved isTypePath reads isQualifier isMark
  rw [← baseName?_canonical,
    ← baseName?_canonical (spelling ++ " " ++ qualifier ++ mark)] at sameBase
  rw [references, references, referenceLevels, gatherNames, gatherNames, sameBase, sameArguments]

end Reading

end Places

section Running

variable {path : List PathSegment} {rooted : Bool} {qualifier mark spelling : String}

/-- The name on which a qualifier has run on is written with it at the end. -/
theorem joined_runOn {segments : List String} (nonempty : segments ≠ []) (qualifier : String) :
    joined (runOn qualifier segments) = joined segments ++ qualifier.toList := by
  induction segments using joined.induct with
  | case1 => exact absurd rfl nonempty
  | case2 segment => simp [runOn, joined]
  | case3 segment next rest further =>
    have behind := further (List.cons_ne_nil next rest)
    cases rest <;> simp_all [runOn, joined]

/-- Only the last name is changed by a qualifier that runs on. -/
theorem mem_runOn {segments : List String} {name : String}
    (member : name ∈ runOn qualifier segments) :
    name ∈ segments ∨ ∃ last ∈ segments, name = last ++ qualifier := by
  induction segments using joined.induct with
  | case1 => cases member
  | case2 segment => exact .inr ⟨segment, by simp, List.mem_singleton.mp member⟩
  | case3 segment next rest further =>
    rcases List.mem_cons.mp member with rfl | behind
    · exact .inl List.mem_cons_self
    · refine (further behind).imp (List.mem_cons_of_mem _) ?_
      rintro ⟨last, listed, same⟩
      exact ⟨last, List.mem_cons_of_mem _ listed, same⟩

/-- No word of the language ends in a qualifier, apart from the qualifier. -/
theorem append_qualifier_notMem {word : String} (nonempty : word.toList ≠ [])
    (isQualifier : qualifier ∈ qualifierWords) :
    word ++ qualifier ∉ qualifierWords ++ (elaboratedWords ++ builtinWords) := by
  have whole : ∀ ending ∈ qualifierWords,
      ∀ known ∈ qualifierWords ++ (elaboratedWords ++ builtinWords),
        ending.toList <:+ known.toList → known = ending := by decide +kernel
  intro member
  have same := whole qualifier isQualifier _ member (by simp)
  have lengths := congrArg (fun text => text.toList.length) same
  simp only [String.toList_append, List.length_append] at lengths
  exact nonempty (List.length_eq_zero_iff.mp (by omega))

/-- A simple name with a qualifier at its end is a simple name. -/
theorem IsSimple.append_qualifier {word : String} (simple : IsSimple word)
    (isQualifier : qualifier ∈ qualifierWords) : IsSimple (word ++ qualifier) := by
  have unknown := append_qualifier_notMem simple.nonempty isQualifier
  have qualifierLegible := (isRead_qualifier isQualifier).legible
  refine ⟨?_, ?_, ?_, ?_⟩
  · simp [simple.nonempty]
  · rw [String.toList_append, List.forall_mem_append]
    exact ⟨simple.word, qualifierLegible.2⟩
  · exact fun member => unknown (by simp [member])
  · exact fun member => unknown (by simp [member])

/-- The names that a qualifier has run on from are those of a type, and not of a builtin one. -/
theorem isQualified_runOn (isTypePath : IsTypePath path)
    (isQualifier : qualifier ∈ qualifierWords) :
    IsQualified ⟨runOn qualifier (path.map (·.name))⟩ where
  nonempty := by
    match path, isTypePath.nonempty with
    | [_], _ => simp [runOn]
    | _ :: _ :: _, _ => simp [runOn]
  simple := by
    intro name member
    rcases mem_runOn member with listed | ⟨last, listed, rfl⟩
    · exact isTypePath.simple name listed
    · exact (isTypePath.simple last listed).append_qualifier isQualifier
  no_number := by
    intro name c isFirst first
    match path, isTypePath with
    | [segment], isTypePath =>
      have nonempty := (isTypePath.simple segment.name (by simp)).nonempty
      cases isFirst
      rw [String.toList_append, List.head?_append_of_ne_nil _ nonempty] at first
      exact isTypePath.no_number segment rfl c first
    | segment :: _ :: _, isTypePath =>
      cases isFirst
      exact isTypePath.no_number segment rfl c first
  no_builtin := by
    intro word isBuiltin same
    match path, isTypePath with
    | [segment], isTypePath =>
      obtain rfl := List.singleton_inj.mp same
      exact append_qualifier_notMem (isTypePath.simple segment.name (by simp)).nonempty isQualifier
        (by simp [isBuiltin])
    | _ :: _ :: [], _ => simp [runOn] at same
    | _ :: _ :: _ :: _, _ => simp [runOn] at same

/-- The mark behind an argument list takes no blank, and what is left of the list nothing. -/
theorem outsideArguments_runOn (isTypePath : IsTypePath path) (notBare : ¬ EndsBare path)
    (rooted : Bool) (isQualifier : qualifier ∈ qualifierWords) (isMark : mark ∈ addressMarks) :
    outsideArguments 0 (render (rootTokens rooted ++
        (pathTokens path ++ .word qualifier :: tokens mark))) =
      render (rootTokens rooted ++
        (nameTokens (runOn qualifier (path.map (·.name))) ++ tokens mark)) := by
  obtain ⟨markAround, noWord, -, -⟩ := tokens_addressMark isMark
  have backAround := around_behind isQualifier isMark
  have noGap : ∀ first, gap first (tokens mark) = [] := by
    intro first
    match list : tokens mark with
    | [] => exact gap_nil first
    | .mark symbol :: rest => exact gap_mark first symbol rest
    | .word word :: rest => exact absurd (list ▸ List.mem_cons_self) (noWord word)
  have rootGap : ∀ list, gap (rootTokens rooted) list = [] := by
    intro list
    cases list with
    | nil => exact gap_nil _
    | cons token rest => cases rooted <;> cases token <;> simp [rootTokens, gap, Token.spaced]
  have listGap : gap (pathTokens path) (.word qualifier :: tokens mark) = [] := by
    obtain ⟨segment, last, list, arguments⟩ : ∃ segment, path.getLast? = some segment ∧
        ∃ list, segment.arguments? = some list := by
      simpa [EndsBare, Option.ne_none_iff_exists'] using notBare
    have closing : (pathTokens path).getLast? = some (.mark '>') := by
      rw [getLast?_pathTokens, last]
      simp [PathSegment.tokens, arguments, List.getLast?_cons]
    simp [gap, closing, Token.spaced]
  have written : render (.word qualifier :: tokens mark) =
      qualifier.toList ++ render (tokens mark) := by
    rw [← List.singleton_append, render_append, noGap, List.nil_append]
    rfl
  have names : path.map (·.name) ≠ [] := by simpa using isTypePath.nonempty
  rw [render_append, rootGap, render_append, listGap, render_append, rootGap, render_append, noGap,
    outsideArguments_append_plain (plain_of_mem_around (rootTokens_around rooted)),
    List.nil_append, List.nil_append, List.nil_append, List.nil_append, render_pathTokens,
    outsideArguments_path isTypePath.writable,
    outsideArguments_eq_self (plain_of_mem_around backAround), written, render_nameTokens,
    joined_runOn names, List.append_assoc]

/-- Behind an argument list a qualifier makes another type of the path. -/
theorem baseName?_of_runOn (isTypePath : IsTypePath path)
    (reads : tokens spelling = rootTokens rooted ++ pathTokens path)
    (isQualifier : qualifier ∈ qualifierWords) (isMark : mark ∈ addressMarks)
    (lost : ¬ KeepsApart path) : baseName? (spelling ++ " " ++ qualifier ++ mark) =
      some ("::".intercalate (runOn qualifier (path.map (·.name)))) := by
  obtain ⟨notBare, noOperator⟩ := not_or.mp lost
  have qualified := isQualified_runOn isTypePath isQualifier
  obtain ⟨markAround, -, markNameless, -⟩ := tokens_addressMark isMark
  have rootAround := rootTokens_around rooted
  have backAround := around_behind isQualifier isMark
  have stripped := withoutArguments_render
    (isRead_around rootAround backAround (isRead_pathTokens isTypePath.writable))
    (isRead_around rootAround markAround (isRead_nameTokens qualified.simple))
    (fun speaks => noOperator ((speaksOfOperator_around_iff rootAround backAround).mp speaks))
    (outsideArguments_runOn isTypePath notBare rooted isQualifier isMark)
  rw [← canonical_behind reads isQualifier isMark] at stripped
  have display : (ScopedName.mk (runOn qualifier (path.map (·.name)))).display =
      "::".intercalate (runOn qualifier (path.map (·.name))) := by
    rw [← String.toList_inj, qualified.toList_display, toList_intercalate]
  have noBuiltin := display ▸ qualified.not_isBuiltin
  have noNumber : ("::".intercalate (runOn qualifier (path.map (·.name)))).toList.head?.any
      Char.isDigit = false := by
    obtain ⟨c, text, starts, -, noDigit⟩ := qualified.exists_first
    rw [toList_intercalate, starts]
    simpa using noDigit
  rw [baseName?_of_names qualified.nonempty qualified.simple rootAround
    (filter_rootTokens rooted) markAround markNameless stripped, noNumber, noBuiltin]
  rfl

/-- In front of the path the qualifier makes no other type of it. -/
theorem baseName?_inFront_ne (isTypePath : IsTypePath path)
    (reads : tokens spelling = rootTokens rooted ++ pathTokens path)
    (isQualifier : qualifier ∈ qualifierWords) (isMark : mark ∈ addressMarks)
    (noOperator : ¬ SpeaksOfOperator (pathTokens path)) :
    baseName? (qualifier ++ " " ++ spelling ++ mark) ≠
      some ("::".intercalate (runOn qualifier (path.map (·.name)))) := by
  obtain ⟨markAround, noWord, markNameless, -⟩ := tokens_addressMark isMark
  have frontAround : ∀ token ∈ .word qualifier :: rootTokens rooted, token.StandsAround :=
    around_inFront isQualifier
  have names : path.map (·.name) ≠ [] := by simpa using isTypePath.nonempty
  have stripped := withoutArguments_path isTypePath.writable frontAround markAround noOperator
    (.inr fun word first => noWord word (List.mem_of_mem_head? first))
  rw [← canonical_inFront reads isQualifier isMark] at stripped
  have dropped : (Token.word qualifier).isOfName = false := by
    simpa [Token.isOfName] using isQualifier
  rw [baseName?_of_names names isTypePath.simple frontAround
    ((List.filter_cons_of_neg (by simp [dropped])).trans (filter_rootTokens rooted))
    markAround markNameless stripped]
  intro same
  split at same
  · cases same
  · have longer := congrArg String.toList (Option.some.inj same)
    rw [toList_intercalate, toList_intercalate, joined_runOn names] at longer
    exact (isRead_qualifier isQualifier).legible.1 (by simpa using longer)

/-- What has been found stays listed. -/
theorem mem_gatherNames_of_mem {levels : Nat} {found : List String} {name : String}
    (listed : name ∈ found) : name ∈ gatherNames levels found spelling := by
  induction levels generalizing found spelling with
  | zero => exact listed
  | succ levels further =>
    rw [gatherNames]
    refine List.foldlRecOn (motive := (name ∈ ·)) _ _ ?_ fun found listed part _ => further listed
    split
    · exact mem_addNew.mpr (.inl listed)
    · exact listed

/-- The type that a spelling names is among its references. -/
theorem mem_references_of_baseName? {name : String} (found : baseName? spelling = some name) :
    name ∈ references spelling := by
  rw [references, referenceLevels, gatherNames, baseName?_canonical, found]
  exact List.foldlRecOn (motive := (name ∈ ·)) _ _ (mem_addNew.mpr (.inr rfl))
    fun _ listed _ _ => mem_gatherNames_of_mem listed

end Running

/-- A qualifier in front of a named type and the same qualifier behind it, be it followed by the
mark of a pointer or a reference, make the reading find the same type exactly if the last segment
of the type has no template arguments or the spelling speaks of an operator. Then all references
are the same. Otherwise the qualifier behind the type has run on from its name, and the name that
this makes is found and is listed among the references. -/
theorem qualifierPlaces_agree_iff {path : List PathSegment} (isTypePath : IsTypePath path)
    {rooted : Bool} {spelling qualifier mark : String}
    (reads : HasTokens spelling (rootTokens rooted ++ pathTokens path))
    (isQualifier : qualifier ∈ qualifierWords) (isMark : mark ∈ addressMarks) :
    (baseName? (qualifier ++ " " ++ spelling ++ mark) =
        baseName? (spelling ++ " " ++ qualifier ++ mark) ↔ KeepsApart path) ∧
      (KeepsApart path → references (qualifier ++ " " ++ spelling ++ mark) =
        references (spelling ++ " " ++ qualifier ++ mark)) ∧
      (¬ KeepsApart path →
        baseName? (spelling ++ " " ++ qualifier ++ mark) =
          some ("::".intercalate (runOn qualifier (path.map (·.name)))) ∧
        "::".intercalate (runOn qualifier (path.map (·.name))) ∈
          references (spelling ++ " " ++ qualifier ++ mark)) := by
  rw [hasTokens_iff] at reads
  have runs := baseName?_of_runOn isTypePath reads isQualifier isMark
  refine ⟨⟨fun same => ?_, baseName?_of_keepsApart isTypePath reads isQualifier isMark⟩,
    references_of_keepsApart isTypePath reads isQualifier isMark,
    fun lost => ⟨runs lost, mem_references_of_baseName? (runs lost)⟩⟩
  by_contra lost
  exact baseName?_inFront_ne isTypePath reads isQualifier isMark (fun ofOperator =>
    lost (.inr ofOperator)) (same.trans (runs lost))

/-- Two segments, the first of them with an argument. -/
def elementPath : List PathSegment := [⟨"list", some [.word "int"]⟩, ⟨"iterator", none⟩]

/-- Behind a segment without arguments a qualifier changes nothing. -/
theorem qualifierPlaces_agree_iff_element :
    IsTypePath elementPath ∧
      HasTokens "list<int>::iterator" (rootTokens false ++ pathTokens elementPath) ∧
      "volatile" ∈ qualifierWords ∧ "&" ∈ addressMarks ∧
      (baseName? ("volatile" ++ " " ++ "list<int>::iterator" ++ "&") =
        baseName? ("list<int>::iterator" ++ " " ++ "volatile" ++ "&") ↔ KeepsApart elementPath) ∧
      references ("volatile" ++ " " ++ "list<int>::iterator" ++ "&") =
        references ("list<int>::iterator" ++ " " ++ "volatile" ++ "&") := by
  have list : (PathSegment.mk "list" (some [.word "int"])).IsWritable :=
    { simple := by decide
      read := by
        rintro _ ⟨⟩
        exact List.forall_mem_singleton.mpr (IsSimple.isRead (by decide))
      closed := by
        rintro _ ⟨⟩
        exact .of_plain (plain_of_names (List.all_eq_true.mp (by decide))) (by simp) }
  have iterator : (PathSegment.mk "iterator" none).IsWritable :=
    ⟨by decide, nofun, nofun⟩
  have isTypePath : IsTypePath elementPath :=
    { nonempty := List.cons_ne_nil _ _
      writable := by simpa [elementPath] using ⟨list, iterator⟩
      no_number := by
        rintro _ ⟨⟩ c first
        have letter : some 'l' = some c := first
        cases letter
        decide }
  have reads : HasTokens "list<int>::iterator" (rootTokens false ++ pathTokens elementPath) :=
    hasTokens_iff.mpr (by decide +kernel)
  have isQualifier : "volatile" ∈ qualifierWords := by decide
  have isMark : "&" ∈ addressMarks := by decide
  have kept : KeepsApart elementPath := .inl (by rintro _ ⟨⟩; rfl)
  obtain ⟨agree, alike, -⟩ := qualifierPlaces_agree_iff isTypePath reads isQualifier isMark
  exact ⟨isTypePath, reads, isQualifier, isMark, agree, alike kept⟩

/-- Behind an argument list a qualifier makes a type of another name, which is referred to. -/
theorem qualifier_runs_on :
    references ("const" ++ " " ++ "std::vector<int>" ++ "&") = ["std::vector"] ∧
      references ("std::vector<int>" ++ " " ++ "const" ++ "&") = ["std::vectorconst"] ∧
      baseName? ("const" ++ " " ++ "std::vector<int>" ++ "&") ≠
        baseName? ("std::vector<int>" ++ " " ++ "const" ++ "&") := by
  decide +kernel

end Spelling

end DeclGraph
