import DeclGraph.Proofs.Spelling.Writing

/-!
# Names of types are reduced

What a spelling refers to is told by names that carry nothing but the name: read as a type once
more, such a name names itself. Leaving out template arguments can join what stood around them
into one word, and dropping the separator in front can show another one. Neither matters for a
second reading, since a name is put together from words that have been read after that.
-/

namespace DeclGraph

namespace Spelling

/-- What a spelling without template arguments says about the type it names. -/
structure NamesType (plain name : String) : Prop where
  no_function : '(' ∉ plain.toList
  written : name.toList = dropLeadingSeparators
    (render (((tokens plain).takeWhile (· ≠ .mark '[')).filter Token.isOfName))
  nonempty : name.toList ≠ []
  no_number : ∀ c ∈ name.toList.head?, c.isDigit = false
  no_builtin : isBuiltin name = false

/-- A spelling that is the name of a type and nothing else. -/
structure IsReduced (name : String) : Prop where
  names_itself : baseName? name = some name
  no_builtin : isBuiltin name = false
  no_arguments : arguments name = []
  no_qualifier : ∀ qualifier ∈ qualifierWords, .word qualifier ∉ tokens name
  /-- Words and separators, and no mark of a pointer, a reference, an array or a function. -/
  unmarked : ∀ c ∈ name.toList, isNameChar c ∨ c = ' '

variable {spelling name : String} {list : List Token}

section Names

/-- The name taken from a spelling is that of the type which it names. -/
theorem baseName?_eq_some_iff :
    baseName? spelling = some name ↔ NamesType (withoutArguments (canonical spelling)) name := by
  unfold baseName?
  generalize withoutArguments (canonical spelling) = plain
  dsimp only
  generalize words : ((tokens plain).takeWhile (· ≠ .mark '[')).filter Token.isOfName = list
  by_cases function : '(' ∈ plain.toList
  · rw [if_pos (by simpa using function)]
    exact ⟨nofun, fun namesType => absurd function namesType.no_function⟩
  · rw [if_neg (by simpa using function)]
    constructor
    · intro found
      split at found
      · cases found
      · rename_i passes
        cases found
        simp only [Bool.or_eq_true, not_or, Bool.not_eq_true, List.isEmpty_eq_false_iff] at passes
        obtain ⟨⟨nonempty, noNumber⟩, noBuiltin⟩ := passes
        refine ⟨function, by rw [words, String.toList_ofList], by simpa using nonempty, ?_,
          noBuiltin⟩
        intro c first
        rw [String.toList_ofList] at first
        simpa [show _ = some c from first] using noNumber
    · intro namesType
      have written := namesType.written
      rw [words] at written
      have noNumber : ((name.toList.head?.map Char.isDigit).getD false) = false := by
        cases first : name.toList.head? with
        | none => rfl
        | some c => exact namesType.no_number c first
      have nonempty : name.toList.isEmpty = false := by simpa using namesType.nonempty
      rw [← written, String.ofList_toList, nonempty, noNumber, namesType.no_builtin]
      rfl

/-- A canonical spelling names the same type. -/
theorem baseName?_canonical (spelling : String) :
    baseName? (canonical spelling) = baseName? spelling := by
  unfold baseName?
  rw [canonical_eq_iff.mpr (tokens_canonical spelling)]

/-- Behind leading separators that were dropped there are no more to drop. -/
theorem dropLeadingSeparators_idempotent (text : List Char) :
    dropLeadingSeparators (dropLeadingSeparators text) = dropLeadingSeparators text := by
  induction text using dropLeadingSeparators.induct with
  | case1 rest further => rw [dropLeadingSeparators, further]
  | case2 text plain =>
    have itself : dropLeadingSeparators text = text := by rw [dropLeadingSeparators.eq_2 _ plain]
    rw [itself, itself]

/-- A separator in front is written in front. -/
theorem render_separator_cons (rest : List Token) :
    render (.mark ':' :: .mark ':' :: rest) = ':' :: ':' :: render rest := by
  rw [render_mark_cons (by decide), render_mark_cons (by decide)]

/-- What is written without the separators in front is what is written for the last tokens. -/
theorem exists_render_eq_dropLeadingSeparators (legible : ∀ token ∈ list, token.IsLegible) :
    ∃ rest, rest <:+ list ∧ dropLeadingSeparators (render list) = render rest := by
  generalize written : render list = text
  induction text using dropLeadingSeparators.induct generalizing list with
  | case1 text further =>
    -- Two colons at the start of what is written are the first two tokens.
    have readBack := (spells_render legible).scanFrom_eq
    rw [written, scanFrom_separator] at readBack
    obtain ⟨behind, rfl⟩ : ∃ behind, list = .mark ':' :: .mark ':' :: behind :=
      ⟨scanFrom [] text, by simpa [pendingWord] using readBack.symm⟩
    rw [render_separator_cons, List.cons.injEq, List.cons.injEq] at written
    obtain ⟨rest, isSuffix, same⟩ :=
      further (fun token member => legible token (by simp [member])) written.2.2
    rw [dropLeadingSeparators, same]
    exact ⟨rest, isSuffix.trans ⟨[.mark ':', .mark ':'], rfl⟩, rfl⟩
  | case2 text plain =>
    rw [dropLeadingSeparators.eq_2 _ plain]
    exact ⟨list, List.suffix_refl _, written.symm⟩

/-- Every name of a type is written for tokens of names. -/
theorem NamesType.exists_render {plain : String} (namesType : NamesType plain name) :
    ∃ rest, name = String.ofList (render rest) ∧
      ∀ token ∈ rest, token.IsRead ∧ token.isOfName := by
  have words : ∀ token ∈ ((tokens plain).takeWhile (· ≠ .mark '[')).filter Token.isOfName,
      token.IsRead ∧ token.isOfName := by
    intro token member
    obtain ⟨taken, ofName⟩ := List.mem_filter.mp member
    exact ⟨isRead_of_mem_tokens ((List.takeWhile_prefix _).subset taken), ofName⟩
  obtain ⟨rest, isSuffix, written⟩ :=
    exists_render_eq_dropLeadingSeparators fun token member => (words token member).1.legible
  refine ⟨rest, ?_, fun token member => words token (isSuffix.subset member)⟩
  rw [← written, ← namesType.written, String.ofList_toList]

end Names

section Reading

/-- Tokens of names are written with characters of names and single spaces. -/
theorem mem_render_of_names (ofNames : ∀ token ∈ list, token.IsRead ∧ token.isOfName) {c : Char}
    (member : c ∈ render list) : isNameChar c ∨ c = ' ' := by
  by_cases blank : c = ' '
  · exact .inr blank
  obtain ⟨token, listed, inside⟩ := (mem_render_iff blank).mp member
  obtain ⟨read, ofName⟩ := ofNames token listed
  refine .inl ?_
  cases token with
  | word text => simp [isNameChar, read.legible.2 c inside]
  | mark symbol =>
    rw [List.mem_singleton.mp inside]
    simpa [Token.isOfName, isNameChar] using Or.inr ofName

/-- What tokens outside of template arguments say about the type, if they are no function and no
array. -/
theorem namesType_render_iff (read : ∀ token ∈ list, token.IsRead)
    (noFunction : .mark '(' ∉ list) (noArray : .mark '[' ∉ list) :
    NamesType (String.ofList (render list)) name ↔
      name.toList = dropLeadingSeparators (render (list.filter Token.isOfName)) ∧
        name.toList ≠ [] ∧ (∀ c ∈ name.toList.head?, c.isDigit = false) ∧
        isBuiltin name = false := by
  have words : (tokens (String.ofList (render list))).takeWhile (· ≠ .mark '[') = list := by
    rw [tokens_render read, List.takeWhile_eq_self_iff]
    intro token member
    have other : token ≠ .mark '[' := fun same => noArray (same ▸ member)
    simpa using other
  have absent : '(' ∉ (String.ofList (render list)).toList := by
    rw [String.toList_ofList, mark_mem_render_iff (fun token member => (read token member).legible)
      (by decide) (by decide)]
    exact noFunction
  constructor
  · intro namesType
    exact ⟨words ▸ namesType.written, namesType.nonempty, namesType.no_number,
      namesType.no_builtin⟩
  · rintro ⟨written, nonempty, noNumber, noBuiltin⟩
    exact ⟨absent, words.symm ▸ written, nonempty, noNumber, noBuiltin⟩

/-- A name of a type is reduced, however malformed the spelling is that it was found in. -/
theorem isReduced_of_baseName? (found : baseName? spelling = some name) : IsReduced name := by
  have namesType := baseName?_eq_some_iff.mp found
  obtain ⟨rest, rfl, ofNames⟩ := namesType.exists_render
  have read : ∀ token ∈ rest, token.IsRead := fun token member => (ofNames token member).1
  have readBack : tokens (String.ofList (render rest)) = rest := tokens_render read
  have unmarked : ∀ c ∈ (String.ofList (render rest)).toList, isNameChar c ∨ c = ' ' := by
    intro c member
    rw [String.toList_ofList] at member
    exact mem_render_of_names ofNames member
  have plain : ∀ c ∈ (String.ofList (render rest)).toList, c ≠ '<' ∧ c ≠ '>' := by
    intro c member
    rcases unmarked c member with ofName | rfl
    · exact ⟨ne_of_isNameChar ofName (by decide), ne_of_isNameChar ofName (by decide)⟩
    · decide
  have stripped : withoutArguments (canonical (String.ofList (render rest))) =
      String.ofList (render rest) := by
    rw [canonical, readBack]
    refine withoutArguments_eq_self ?_ plain
    rw [String.toList_ofList, trim_render fun token member => (read token member).legible]
  have noOther : ∀ {symbol : Char}, symbol ≠ ':' → .mark symbol ∉ rest := by
    intro symbol other member
    exact other (by simpa [Token.isOfName] using (ofNames _ member).2)
  have settled : dropLeadingSeparators (render rest) = render rest := by
    have again := congrArg dropLeadingSeparators namesType.written
    rwa [dropLeadingSeparators_idempotent, ← namesType.written, String.toList_ofList] at again
  have allOfName : rest.filter Token.isOfName = rest :=
    List.filter_eq_self.mpr fun token member => (ofNames token member).2
  refine ⟨baseName?_eq_some_iff.mpr ?_, namesType.no_builtin, argumentsFrom_of_plain plain, ?_,
    unmarked⟩
  · rw [stripped, namesType_render_iff read (noOther (by decide)) (noOther (by decide)), allOfName,
      settled]
    exact ⟨String.toList_ofList, namesType.nonempty, namesType.no_number, namesType.no_builtin⟩
  · intro qualifier isQualifier member
    rw [readBack] at member
    have ofName := (ofNames _ member).2
    simp [Token.isOfName, isQualifier] at ofName

end Reading

section Gathering

/-- References are gathered without repeats. -/
theorem nodup_gatherNames {levels : Nat} {found : List String} (distinctSoFar : found.Nodup) :
    (gatherNames levels found spelling).Nodup := by
  induction levels generalizing found spelling with
  | zero => exact distinctSoFar
  | succ levels further =>
    rw [gatherNames]
    refine List.foldlRecOn (motive := List.Nodup) _ _ ?_ fun found distinctSoFar part _ =>
      further distinctSoFar
    split
    · exact nodup_addNew _ distinctSoFar
    · exact distinctSoFar

/-- Whatever is found anew is what some part of the spelling names. -/
theorem mem_gatherNames {levels : Nat} {found : List String}
    (member : name ∈ gatherNames levels found spelling) :
    name ∈ found ∨ ∃ part, baseName? part = some name := by
  induction levels generalizing found spelling with
  | zero => exact .inl member
  | succ levels further =>
    rw [gatherNames] at member
    have base : ∀ {start : List String},
        name ∈ (arguments spelling).foldl (gatherNames levels) start →
          name ∈ start ∨ ∃ part, baseName? part = some name := by
      generalize arguments spelling = parts
      induction parts with
      | nil => exact fun present => .inl present
      | cons part parts behind =>
        intro start present
        rcases behind present with early | named
        · exact further early
        · exact .inr named
    rcases base member with early | named
    · split at early
      · rename_i other names
        rcases mem_addNew.mp early with old | rfl
        · exact .inl old
        · exact .inr ⟨spelling, names⟩
      · exact .inl early
    · exact .inr named

end Gathering

/-- The names that a spelling refers to, whatever the spelling is, are all different and reduced:
each is the name of a type that names itself, with no template arguments, no qualifiers and no
marks of pointers, references, arrays and functions, and is not builtin. -/
theorem references_reduced (spelling : String) :
    (references spelling).Nodup ∧ ∀ name ∈ references spelling, IsReduced name := by
  refine ⟨nodup_gatherNames List.nodup_nil, fun name member => ?_⟩
  rcases mem_gatherNames member with nowhere | ⟨part, named⟩
  · cases nowhere
  · exact isReduced_of_baseName? named

/-- Leaving out the arguments glues two words to a third one, which the list then holds. -/
theorem references_reduced_glued :
    references "Map<Key>const::<>::Entry" = ["Mapconst::::Entry", "Key"] ∧
      IsReduced "Mapconst::::Entry" := by
  have listed : references "Map<Key>const::<>::Entry" = ["Mapconst::::Entry", "Key"] := by
    decide +kernel
  refine ⟨listed, (references_reduced "Map<Key>const::<>::Entry").2 _ ?_⟩
  rw [listed]
  exact List.mem_cons_self

end Spelling

end DeclGraph
