import DeclGraph.Proofs.Spelling.Segments
import DeclGraph.Spelling.Reference
import Mathlib.Data.List.TakeWhile

/-!
# Spellings of qualified names

A qualified name is written as its segments with separators between them, and a
separator may stand in front to say that the name starts at the global namespace. Read
as a name, both spellings have the segments of the name. Read as a type, both name the
same: what a type refers to is told without the separator in front.
-/

namespace DeclGraph

namespace Text

/-- Tables whose ranges lie apart cover no common code point. -/
theorem covers_eq_false_of_apart {table other : List Range}
    (apart : ∀ range ∈ table, ∀ hole ∈ other, range.2 < hole.1 ∨ hole.2 < range.1) {code : Nat}
    (covered : covers table code) : covers other code = false := by
  obtain ⟨range, member, first, last⟩ := covers_iff.mp covered
  rw [Bool.eq_false_iff]
  intro coveredToo
  obtain ⟨hole, holeMember, holeFirst, holeLast⟩ := covers_iff.mp coveredToo
  have := apart range member hole holeMember
  omega

/-- No letter and no number is white space. -/
theorem isBlank_of_isAlphanumeric {c : Char} (alphanumeric : isAlphanumeric c) :
    isBlank c = false := by
  unfold isAlphanumeric at alphanumeric
  split at alphanumeric
  · rename_i small
    have early : ∀ code < 128, (Char.ofNat code).isAlphanum = true →
        isBlank (Char.ofNat code) = false := by decide +kernel
    have itself := early c.toNat small
    rw [Char.ofNat_toNat] at itself
    exact itself alphanumeric
  · have apart : ∀ range ∈ alphanumericRanges, ∀ hole ∈ blankRanges,
        range.2 < hole.1 ∨ hole.2 < range.1 := by decide +kernel
    exact covers_eq_false_of_apart apart alphanumeric

end Text

namespace Spelling

/-- A word that can be a segment of a qualified name. -/
structure IsSimple (segment : String) : Prop where
  nonempty : segment.toList ≠ []
  word : ∀ c ∈ segment.toList, isWordChar c
  no_qualifier : segment ∉ qualifierWords
  no_keyword : segment ∉ elaboratedWords

instance {segment : String} : Decidable (IsSimple segment) :=
  decidable_of_iff (segment.toList ≠ [] ∧ segment.toList.all isWordChar ∧
      segment ∉ qualifierWords ∧ segment ∉ elaboratedWords)
    ⟨fun ⟨nonempty, word, no_qualifier, no_keyword⟩ =>
        ⟨nonempty, List.all_eq_true.mp word, no_qualifier, no_keyword⟩,
      fun simple => ⟨simple.nonempty, List.all_eq_true.mpr simple.word, simple.no_qualifier,
        simple.no_keyword⟩⟩

/-- A qualified name that can be that of a type: it has no template arguments, is no number
and is no builtin type. -/
structure IsQualified (name : ScopedName) : Prop where
  nonempty : name.segments ≠ []
  simple : ∀ segment ∈ name.segments, IsSimple segment
  no_number : ∀ segment c, name.segments.head? = some segment → segment.toList.head? = some c →
    c.isDigit = false
  no_builtin : ∀ segment ∈ builtinWords, name.segments ≠ [segment]

example : IsQualified ⟨["shapes", "Circle"]⟩ where
  nonempty := by decide
  simple := by decide
  no_number := by
    rintro _ c ⟨⟩ first
    have letter : some 's' = some c := first
    cases letter
    decide
  no_builtin := by simp

/-- The tokens of a qualified name. -/
def nameTokens : List String → List Token
  | [] => []
  | [segment] => [.word segment]
  | segment :: next :: rest =>
    .word segment :: .mark ':' :: .mark ':' :: nameTokens (next :: rest)

section Characters

/-- The characters that qualified names are written with. -/
def isNameChar (c : Char) : Bool := isWordChar c || c == ':'

/-- No character of a name is a blank. -/
theorem isBlank_of_isNameChar {c : Char} (ofName : isNameChar c) : Text.isBlank c = false := by
  simp only [isNameChar, isWordChar, Bool.or_eq_true, beq_iff_eq] at ofName
  rcases ofName with ((alphanumeric | rfl) | rfl) | rfl
  · exact Text.isBlank_of_isAlphanumeric alphanumeric
  all_goals decide

/-- A character of a name is none of the marks that names cannot have. -/
theorem ne_of_isNameChar {c mark : Char} (ofName : isNameChar c)
    (other : isNameChar mark = false) : c ≠ mark := by
  rintro rfl
  rw [ofName] at other
  cases other

/-- Simple names joined by separators have characters of names alone. -/
theorem isNameChar_of_mem_joined {segments : List String}
    (simple : ∀ segment ∈ segments, IsSimple segment) {c : Char} (member : c ∈ joined segments) :
    isNameChar c := by
  rcases mem_joined member with rfl | ⟨segment, listed, own⟩
  · rfl
  · simp [isNameChar, (simple segment listed).word c own]

/-- Nothing is trimmed from a text without blanks. -/
theorem trim_of_names {text : List Char} (ofNames : ∀ c ∈ text, isNameChar c) :
    Text.trim text = text :=
  Text.trim_eq_self
    (fun c first => isBlank_of_isNameChar (ofNames c (List.mem_of_mem_head? first)))
    (fun c last => isBlank_of_isNameChar (ofNames c (List.mem_of_mem_getLast? last)))

/-- Outside of argument lists nothing is left out. -/
theorem outsideArguments_append_plain {text : List Char} (plain : ∀ c ∈ text, c ≠ '<' ∧ c ≠ '>')
    (rest : List Char) : outsideArguments 0 (text ++ rest) = text ++ outsideArguments 0 rest := by
  induction text with
  | nil => rfl
  | cons c text further =>
    have first := plain c List.mem_cons_self
    rw [List.cons_append, outsideArguments, if_neg first.1, if_neg first.2, if_pos rfl,
      further fun other member => plain other (List.mem_cons_of_mem _ member), List.cons_append]

/-- A text without brackets has nothing inside of arguments. -/
theorem outsideArguments_eq_self {text : List Char} (plain : ∀ c ∈ text, c ≠ '<' ∧ c ≠ '>') :
    outsideArguments 0 text = text := by
  simpa [outsideArguments] using outsideArguments_append_plain plain []

/-- A trimmed spelling without angle brackets has no template arguments to leave out. -/
theorem withoutArguments_eq_self {spelling : String}
    (trimmed : Text.trim spelling.toList = spelling.toList)
    (plain : ∀ c ∈ spelling.toList, c ≠ '<' ∧ c ≠ '>') : withoutArguments spelling = spelling := by
  unfold withoutArguments
  rw [outsideArguments_eq_self plain, trimmed, String.ofList_toList, ite_self]

/-- A spelling without angle brackets has no template arguments. -/
theorem argumentsFrom_of_plain {text : List Char} (plain : ∀ c ∈ text, c ≠ '<' ∧ c ≠ '>') :
    argumentsFrom 0 [] text = [] := by
  induction text with
  | nil => rfl
  | cons c rest further =>
    have first := plain c List.mem_cons_self
    unfold argumentsFrom
    rw [if_neg first.1, if_neg first.2, if_neg (by simp), if_pos rfl]
    exact further fun other member => plain other (List.mem_cons_of_mem _ member)

/-- Characters of names are not brackets. -/
theorem plain_of_names {text : List Char} (ofNames : ∀ c ∈ text, isNameChar c) :
    ∀ c ∈ text, c ≠ '<' ∧ c ≠ '>' := fun c member =>
  ⟨ne_of_isNameChar (ofNames c member) (by decide), ne_of_isNameChar (ofNames c member) (by decide)⟩

/-- A spelling made of characters of names has no arguments to lose. -/
theorem withoutArguments_of_names {spelling : String}
    (ofNames : ∀ c ∈ spelling.toList, isNameChar c) : withoutArguments spelling = spelling :=
  withoutArguments_eq_self (trim_of_names ofNames) (plain_of_names ofNames)

/-- A simple name has characters of names alone. -/
theorem IsSimple.isNameChar {segment : String} (simple : IsSimple segment) {c : Char}
    (member : c ∈ segment.toList) : isNameChar c := by
  simp [Spelling.isNameChar, simple.word c member]

/-- A word can be told from its neighbours in a name. -/
theorem IsSimple.isBare {segment : String} (simple : IsSimple segment) :
    ScopedName.IsBare segment where
  nonempty := simple.nonempty
  first_inked := fun _ first =>
    isBlank_of_isNameChar (simple.isNameChar (List.mem_of_mem_head? first))
  last_inked := fun _ last =>
    isBlank_of_isNameChar (simple.isNameChar (List.mem_of_mem_getLast? last))
  unmarked := by
    intro c member marked
    have word := simple.word c member
    simp only [List.mem_cons, List.not_mem_nil, or_false] at marked
    rcases marked with rfl | rfl | rfl | rfl | rfl
    all_goals exact absurd word (by decide)

end Characters

section Reading

variable {segments : List String}

/-- Characters of a word are read on to the pending word. -/
theorem scanFrom_word {word : List Char} (ofWord : ∀ c ∈ word, isWordChar c)
    (pending rest : List Char) :
    scanFrom pending (word ++ rest) = scanFrom (pending ++ word) rest := by
  induction word generalizing pending with
  | nil => simp
  | cons c word further =>
    rw [List.cons_append, scanFrom, if_pos (ofWord c List.mem_cons_self),
      further (fun other member => ofWord other (List.mem_cons_of_mem _ member))]
    simp

/-- A separator ends the pending word. -/
theorem scanFrom_separator (pending rest : List Char) :
    scanFrom pending (':' :: ':' :: rest) =
      pendingWord pending ++ .mark ':' :: .mark ':' :: scanFrom [] rest := by
  have noWord : isWordChar ':' = false := by decide
  have noBlank : Text.isBlank ':' = false := by decide
  simp [scanFrom, noWord, noBlank, pendingWord]

/-- A simple name that is pending ends as one word. -/
theorem pendingWord_segment {segment : String} (simple : IsSimple segment) :
    pendingWord segment.toList = [.word segment] := by
  rw [pendingWord, if_neg (by simpa using simple.nonempty), String.ofList_toList]

/-- Simple names joined by separators are read as their tokens. -/
theorem scanFrom_joined (simple : ∀ segment ∈ segments, IsSimple segment) :
    scanFrom [] (joined segments) = nameTokens segments := by
  induction segments using joined.induct with
  | case1 => rfl
  | case2 segment =>
    have own := simple segment (by simp)
    have scanned := scanFrom_word own.word [] []
    rw [List.append_nil, List.nil_append] at scanned
    rw [joined, nameTokens, scanned, scanFrom, pendingWord_segment own]
  | case3 segment next rest further =>
    have own := simple segment (by simp)
    rw [joined, nameTokens, scanFrom_word own.word, List.nil_append, scanFrom_separator,
      pendingWord_segment own, further fun other member => simple other
        (List.mem_cons_of_mem _ member)]
    rfl

/-- A token of names is half of a separator or one of the names. -/
theorem mem_nameTokens {token : Token} (member : token ∈ nameTokens segments) :
    token = .mark ':' ∨ ∃ segment ∈ segments, token = .word segment := by
  induction segments using nameTokens.induct with
  | case1 => cases member
  | case2 segment => exact .inr ⟨segment, by simp, List.mem_singleton.mp member⟩
  | case3 segment next rest further =>
    simp only [nameTokens, List.mem_cons] at member
    rcases member with rfl | rfl | rfl | inRest
    · exact .inr ⟨segment, by simp, rfl⟩
    · exact .inl rfl
    · exact .inl rfl
    · refine (further inRest).imp_right ?_
      rintro ⟨other, listed, same⟩
      exact ⟨other, List.mem_cons_of_mem _ listed, same⟩

/-- All tokens of simple names are part of a name. -/
theorem filter_nameTokens (simple : ∀ segment ∈ segments, IsSimple segment) :
    (nameTokens segments).filter Token.isOfName = nameTokens segments := by
  refine List.filter_eq_self.mpr fun token member => ?_
  rcases mem_nameTokens member with rfl | ⟨segment, listed, rfl⟩
  · rfl
  · simpa [Token.isOfName] using (simple segment listed).no_qualifier

/-- The tokens of a name are all written without blanks. -/
theorem render_nameTokens : render (nameTokens segments) = joined segments := by
  induction segments using joined.induct with
  | case1 => rfl
  | case2 => rfl
  | case3 segment next rest further =>
    cases rest <;> simp_all [nameTokens, render, joined, Token.chars, Token.spaced]

/-- A name starts as its first segment does. -/
theorem exists_joined_eq_cons (nonempty : segments ≠ [])
    (simple : ∀ segment ∈ segments, IsSimple segment) : ∃ segment c text,
    segments.head? = some segment ∧ segment.toList.head? = some c ∧
      joined segments = c :: text ∧ isWordChar c := by
  obtain ⟨segment, rest, rfl⟩ := List.exists_cons_of_ne_nil nonempty
  have own := simple segment List.mem_cons_self
  obtain ⟨c, more, chars⟩ := List.exists_cons_of_ne_nil own.nonempty
  obtain ⟨text, starts⟩ : ∃ text, joined (segment :: rest) = c :: text := by
    cases rest <;> simp [joined, chars]
  exact ⟨segment, c, text, rfl, by simp [chars], starts, own.word c (by simp [chars])⟩

/-- Nothing is dropped in front of a word. -/
theorem dropLeadingSeparators_cons {c : Char} (ofWord : isWordChar c) (text : List Char) :
    dropLeadingSeparators (c :: text) = c :: text := by
  rw [dropLeadingSeparators]
  rintro _ same
  rw [(List.cons.inj same).1] at ofWord
  exact absurd ofWord (by decide)

/-- A name has no separator in front. -/
theorem dropLeadingSeparators_joined (simple : ∀ segment ∈ segments, IsSimple segment) :
    dropLeadingSeparators (joined segments) = joined segments := by
  by_cases nothing : segments = []
  · rw [nothing]
    rfl
  · obtain ⟨_, c, text, _, _, starts, ofWord⟩ := exists_joined_eq_cons nothing simple
    rw [starts, dropLeadingSeparators_cons ofWord]

/-- A separator in front of names is written in front of them. -/
theorem render_separator :
    render (.mark ':' :: .mark ':' :: nameTokens segments) = ':' :: ':' :: joined segments := by
  rw [← render_nameTokens]
  match segments with
  | [] => rfl
  | [_] => rfl
  | _ :: _ :: _ => rfl

end Reading

namespace IsQualified

variable {name : ScopedName}

/-- The segments of a qualified name can be told from each other. -/
theorem readable (qualified : IsQualified name) : name.Readable :=
  ScopedName.readable_of_bare qualified.nonempty fun segment listed =>
    (qualified.simple segment listed).isBare

/-- A qualified name is displayed as its segments joined. -/
theorem toList_display (qualified : IsQualified name) :
    name.display.toList = joined name.segments :=
  ScopedName.toList_display qualified.nonempty

/-- A rooted name is displayed with a separator in front. -/
theorem toList_rooted (qualified : IsQualified name) :
    ("::" ++ name.display).toList = ':' :: ':' :: joined name.segments := by
  rw [String.toList_append, qualified.toList_display]
  rfl

/-- The display of a qualified name has characters of names alone. -/
theorem isNameChar_of_mem (qualified : IsQualified name) {c : Char}
    (member : c ∈ name.display.toList) : isNameChar c :=
  isNameChar_of_mem_joined qualified.simple (qualified.toList_display ▸ member)

/-- The display of a rooted name has characters of names alone. -/
theorem isNameChar_of_mem_rooted (qualified : IsQualified name) {c : Char}
    (member : c ∈ ("::" ++ name.display).toList) : isNameChar c := by
  simp only [qualified.toList_rooted, List.mem_cons] at member
  rcases member with rfl | rfl | ofName
  · rfl
  · rfl
  · exact isNameChar_of_mem_joined qualified.simple ofName

/-- No token of a qualified name is a keyword of elaborated types. -/
theorem no_elaborated (qualified : IsQualified name) {token : Token}
    (member : token ∈ nameTokens name.segments) : token.isElaborated = false := by
  rcases mem_nameTokens member with rfl | ⟨segment, listed, rfl⟩
  · rfl
  · simpa [Token.isElaborated] using (qualified.simple segment listed).no_keyword

/-- The display of a qualified name is read as its tokens. -/
theorem tokens_display (qualified : IsQualified name) :
    tokens name.display = nameTokens name.segments := by
  rw [tokens, qualified.toList_display, scanFrom_joined qualified.simple, List.filter_eq_self]
  exact fun token member => by simp [qualified.no_elaborated member]

/-- The display of a rooted name is read as a separator and its tokens. -/
theorem tokens_rooted (qualified : IsQualified name) :
    tokens ("::" ++ name.display) = .mark ':' :: .mark ':' :: nameTokens name.segments := by
  rw [tokens, qualified.toList_rooted, scanFrom_separator, scanFrom_joined qualified.simple]
  refine List.filter_eq_self.mpr fun token member => ?_
  rcases List.mem_cons.mp member with rfl | further
  · rfl
  rcases List.mem_cons.mp further with rfl | listed
  · rfl
  · simp [qualified.no_elaborated listed]

/-- A name that starts at the global namespace is spelled canonically. -/
theorem canonical_rooted (qualified : IsQualified name) :
    canonical ("::" ++ name.display) = "::" ++ name.display := by
  rw [canonical, qualified.tokens_rooted, render_separator, ← qualified.toList_rooted,
    String.ofList_toList]

/-- A qualified name is not built in. -/
theorem not_isBuiltin (qualified : IsQualified name) : isBuiltin name.display = false := by
  simp only [isBuiltin, qualified.tokens_display, filter_nameTokens qualified.simple]
  match segments : name.segments with
  | [] => exact absurd segments qualified.nonempty
  | [segment] =>
    have notBuiltin : segment ∉ builtinWords := fun builtin =>
      qualified.no_builtin segment builtin segments
    simpa [nameTokens, Token.isBuiltin] using notBuiltin
  | segment :: next :: rest => simp [nameTokens, Token.isBuiltin]

/-- A qualified name starts with a character of a word, and that is no digit. -/
theorem exists_first (qualified : IsQualified name) :
    ∃ c text, joined name.segments = c :: text ∧ isWordChar c ∧ c.isDigit = false := by
  obtain ⟨segment, c, text, isFirst, first, starts, ofWord⟩ :=
    exists_joined_eq_cons qualified.nonempty qualified.simple
  exact ⟨c, text, starts, ofWord, qualified.no_number segment c isFirst first⟩

/-- The type that a rooted spelling names is the name without the separator in front. -/
theorem baseName?_rooted (qualified : IsQualified name) :
    baseName? ("::" ++ name.display) = some name.display := by
  have noBracket : ("::" ++ name.display).toList.contains '(' = false := by
    rw [List.contains_eq_mem, decide_eq_false_iff_not]
    exact fun member =>
      ne_of_isNameChar (qualified.isNameChar_of_mem_rooted member) (by decide) rfl
  have words : ((tokens ("::" ++ name.display)).takeWhile (· ≠ .mark '[')).filter Token.isOfName =
      .mark ':' :: .mark ':' :: nameTokens name.segments := by
    have noArray : ∀ token ∈ tokens ("::" ++ name.display), token ≠ .mark '[' := by
      rw [qualified.tokens_rooted]
      rintro _ member rfl
      simp only [List.mem_cons, Token.mark.injEq] at member
      rcases member with same | same | listed
      · exact absurd same (by decide)
      · exact absurd same (by decide)
      · rcases mem_nameTokens listed with same | ⟨_, _, same⟩
        · exact absurd (Token.mark.inj same) (by decide)
        · cases same
    rw [List.takeWhile_eq_self_iff.mpr fun token member => by simpa using noArray token member,
      qualified.tokens_rooted]
    have colon : (Token.mark ':').isOfName = true := rfl
    rw [List.filter_cons_of_pos colon, List.filter_cons_of_pos colon,
      filter_nameTokens qualified.simple]
  have leading : dropLeadingSeparators (':' :: ':' :: joined name.segments) =
      joined name.segments := by
    rw [dropLeadingSeparators, dropLeadingSeparators_joined qualified.simple]
  obtain ⟨c, more, starts, _, noDigit⟩ := qualified.exists_first
  have someChar : (joined name.segments).isEmpty = false := by simp [starts]
  have noNumber : ((joined name.segments).head?.map Char.isDigit).getD false = false := by
    simpa [starts] using noDigit
  have text : String.ofList (joined name.segments) = name.display := by
    rw [← qualified.toList_display, String.ofList_toList]
  unfold baseName?
  simp only [qualified.canonical_rooted,
    withoutArguments_of_names fun _ => qualified.isNameChar_of_mem_rooted, noBracket, words,
    render_separator, leading, someChar, noNumber, text, qualified.not_isBuiltin]
  rfl

/-- A rooted spelling refers to the name without the separator in front. -/
theorem references_rooted (qualified : IsQualified name) :
    references ("::" ++ name.display) = [name.display] := by
  have noArguments : arguments ("::" ++ name.display) = [] :=
    argumentsFrom_of_plain (plain_of_names fun _ => qualified.isNameChar_of_mem_rooted)
  simp only [references, qualified.canonical_rooted, referenceLevels, gatherNames,
    qualified.baseName?_rooted, noArguments, List.foldl_nil]
  rfl

/-- The display of a qualified name has no arguments to lose. -/
theorem withoutArguments_display (qualified : IsQualified name) :
    withoutArguments name.display = name.display :=
  withoutArguments_of_names fun _ => qualified.isNameChar_of_mem

/-- The display of a rooted name has no arguments to lose. -/
theorem withoutArguments_rooted (qualified : IsQualified name) :
    withoutArguments ("::" ++ name.display) = "::" ++ name.display :=
  withoutArguments_of_names fun _ => qualified.isNameChar_of_mem_rooted

/-- The display of a qualified name is not rooted. -/
theorem display_not_rooted (qualified : IsQualified name) :
    [':', ':'].isPrefixOf name.display.toList = false := by
  obtain ⟨c, text, starts, ofWord, _⟩ := qualified.exists_first
  rw [qualified.toList_display, starts, List.isPrefixOf]
  have noSeparator : (':' == c) = false := by
    rw [beq_eq_false_iff_ne]
    rintro rfl
    exact absurd ofWord (by decide)
  rw [noSeparator, Bool.false_and]

/-- The display of a rooted name is. -/
theorem rooted_isRooted (qualified : IsQualified name) :
    [':', ':'].isPrefixOf ("::" ++ name.display).toList = true := by
  rw [qualified.toList_rooted]
  simp [List.isPrefixOf]

end IsQualified

end Spelling

end DeclGraph
