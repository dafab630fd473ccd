import DeclGraph.Proofs.Declaration.Identity
import DeclGraph.Proofs.Spelling.Qualified
import DeclGraph.Proofs.Text.Brackets

/-!
# Qualifiers of parameter types

A qualifier behind the type of a parameter says something of the parameter itself and nothing
of the callable. The canonical form drops it together with every other qualifier outside
brackets. So it changes nothing behind a type that is handed over by value. Behind a pointer
it changes nothing only where no qualifier of what is pointed at stands outside brackets, since
such a qualifier is kept in the form of the pointer and dropped with the one behind it.
-/

namespace DeclGraph

namespace Spelling

section Scanning

/-- A blank ends a word and is no token itself. -/
theorem scanFrom_append_blank (pending first second : List Char) :
    scanFrom pending (first ++ ' ' :: second) = scanFrom pending first ++ scanFrom [] second := by
  induction first generalizing pending with
  | nil =>
    have noWord : isWordChar ' ' = false := by decide
    have blank : Text.isBlank ' ' = true := by decide
    simp [scanFrom, noWord, blank]
  | cons c first further =>
    rw [List.cons_append, scanFrom.eq_def pending (c :: first),
      scanFrom.eq_def pending (c :: (first ++ _))]
    dsimp only
    split
    · exact further _
    · rw [further, List.append_assoc, List.append_assoc, List.append_assoc]

/-- The tokens of two spellings with a blank between them. -/
theorem tokens_append_blank (first second : String) :
    tokens (first ++ " " ++ second) = tokens first ++ tokens second := by
  have text : (first ++ " " ++ second).toList = first.toList ++ ' ' :: second.toList := by simp
  unfold tokens
  rw [text, scanFrom_append_blank, List.filter_append]

/-- A qualifier is read as one word. -/
theorem tokens_qualifier {qualifier : String} (isQualifier : qualifier ∈ qualifierWords) :
    tokens qualifier = [.word qualifier] := by
  have scanned : ∀ word ∈ qualifierWords, tokens word = [.word word] := by decide +kernel
  exact scanned qualifier isQualifier

end Scanning

section Nesting

/-- The nesting after some tokens. Words hold no brackets. -/
def nestingOf (depth : Nat) : List Token → Nat
  | [] => depth
  | .mark symbol :: rest => nestingOf (Text.nestingStep depth symbol) rest
  | .word _ :: rest => nestingOf depth rest

/-- The brackets of one list of tokens are counted on through the next. -/
theorem nestingOf_append (depth : Nat) (first second : List Token) :
    nestingOf depth (first ++ second) = nestingOf (nestingOf depth first) second := by
  induction first generalizing depth with
  | nil => rfl
  | cons token first further => cases token <;> exact further _

/-- A pending word opens and closes nothing. -/
theorem nestingOf_pendingWord (depth : Nat) (pending : List Char) :
    nestingOf depth (pendingWord pending) = depth := by
  unfold pendingWord
  split <;> rfl

/-- Neither words nor blanks change the nesting. -/
theorem nestingStep_of_quiet (depth : Nat) {c : Char}
    (quiet : isWordChar c = true ∨ Text.isBlank c = true) : Text.nestingStep depth c = depth := by
  have brackets : ∀ mark ∈ ['<', '(', '>', ')'], isWordChar mark = false ∧
      Text.isBlank mark = false := by
    intro mark isBracket
    simp only [List.mem_cons, List.not_mem_nil, or_false] at isBracket
    rcases isBracket with rfl | rfl | rfl | rfl <;> decide
  have apart : ∀ mark ∈ ['<', '(', '>', ')'], c ≠ mark := by
    rintro mark isBracket rfl
    obtain ⟨noWord, noBlank⟩ := brackets c isBracket
    rcases quiet with word | blank
    · rw [word] at noWord
      cases noWord
    · rw [blank] at noBlank
      cases noBlank
  simp only [List.mem_cons, List.not_mem_nil, or_false, forall_eq_or_imp, forall_eq] at apart
  simp [Text.nestingStep, apart]

/-- The tokens of a text nest as its characters do. -/
theorem nestingOf_scanFrom (depth : Nat) (pending text : List Char) :
    nestingOf depth (scanFrom pending text) = Text.nestingAfter depth text := by
  induction text generalizing depth pending with
  | nil => exact nestingOf_pendingWord depth pending
  | cons c text further =>
    rw [Text.nestingAfter_cons]
    unfold scanFrom
    split
    · rename_i word
      rw [further, nestingStep_of_quiet depth (.inl word)]
    · rw [nestingOf_append, further, nestingOf_append, nestingOf_pendingWord]
      by_cases blank : Text.isBlank c = true
      · rw [if_pos blank, nestingStep_of_quiet depth (.inr blank)]
        rfl
      · rw [if_neg blank]
        rfl

/-- The tokens of a spelling nest like the spelling itself. -/
theorem nestingOf_tokens (depth : Nat) (spelling : String) :
    nestingOf depth (tokens spelling) = Text.nestingAfter depth spelling.toList := by
  have kept : ∀ (depth : Nat) (list : List Token),
      nestingOf depth (list.filter fun token => !token.isElaborated) = nestingOf depth list := by
    intro depth list
    induction list generalizing depth with
    | nil => rfl
    | cons token list further =>
      cases token with
      | mark symbol => exact further _
      | word text =>
        rw [List.filter_cons]
        split <;> exact further _
  unfold tokens
  rw [kept, nestingOf_scanFrom]

end Nesting

section Outside

/-- A token stands in a list outside brackets. -/
def Outside (depth : Nat) (token : Token) (list : List Token) : Prop :=
  ∃ front rest, list = front ++ token :: rest ∧ nestingOf depth front = 0

/-- Some qualifier stands outside brackets. -/
def QualifiedOutside (depth : Nat) (list : List Token) : Prop :=
  ∃ qualifier ∈ qualifierWords, Outside depth (.word qualifier) list

/-- Nothing stands outside in an empty list. -/
theorem not_outside_nil (depth : Nat) (token : Token) : ¬ Outside depth token [] := by
  rintro ⟨front, rest, split, -⟩
  simp at split

/-- A token stands outside at the front or behind it. -/
theorem outside_cons {depth : Nat} {token first : Token} {rest : List Token} :
    Outside depth token (first :: rest) ↔
      (depth = 0 ∧ first = token) ∨ Outside (nestingOf depth [first]) token rest := by
  constructor
  · rintro ⟨front, behind, split, outside⟩
    cases front with
    | nil => exact .inl ⟨outside, (List.cons.inj split).1⟩
    | cons head front =>
      obtain ⟨rfl, behindEq⟩ := List.cons.inj split
      rw [← List.singleton_append, nestingOf_append] at outside
      exact .inr ⟨front, behind, behindEq, outside⟩
  · rintro (⟨outside, rfl⟩ | ⟨front, behind, rfl, outside⟩)
    · exact ⟨[], rest, rfl, outside⟩
    · rw [← nestingOf_append, List.singleton_append] at outside
      exact ⟨first :: front, behind, rfl, outside⟩

/-- An empty list has no qualifier outside. -/
theorem not_qualifiedOutside_nil (depth : Nat) : ¬ QualifiedOutside depth [] := by
  rintro ⟨qualifier, -, outside⟩
  exact not_outside_nil _ _ outside

/-- A mark at the front only opens or closes a bracket. -/
theorem qualifiedOutside_mark (depth : Nat) (symbol : Char) (rest : List Token) :
    QualifiedOutside depth (.mark symbol :: rest) ↔
      QualifiedOutside (Text.nestingStep depth symbol) rest := by
  simp [QualifiedOutside, outside_cons, nestingOf]

/-- A word at the front is a qualifier outside, or one stands behind it. -/
theorem qualifiedOutside_word (depth : Nat) (text : String) (rest : List Token) :
    QualifiedOutside depth (.word text :: rest) ↔
      (depth = 0 ∧ text ∈ qualifierWords) ∨ QualifiedOutside depth rest := by
  simp only [QualifiedOutside, outside_cons, nestingOf, Token.word.injEq]
  constructor
  · rintro ⟨qualifier, isQualifier, ⟨outside, rfl⟩ | later⟩
    · exact .inl ⟨outside, isQualifier⟩
    · exact .inr ⟨qualifier, isQualifier, later⟩
  · rintro (⟨outside, isQualifier⟩ | ⟨qualifier, isQualifier, later⟩)
    · exact ⟨text, isQualifier, .inl ⟨outside, rfl⟩⟩
    · exact ⟨qualifier, isQualifier, .inr later⟩

end Outside

section Dropping

/-- Qualifiers are dropped from one list of tokens and then from the next. -/
theorem dropOuterQualifiers_append (depth : Nat) (first second : List Token) :
    dropOuterQualifiers depth (first ++ second) =
      dropOuterQualifiers depth first ++ dropOuterQualifiers (nestingOf depth first) second := by
  induction first generalizing depth with
  | nil => rfl
  | cons token first further =>
    cases token with
    | mark symbol => simp [dropOuterQualifiers, nestingOf, further]
    | word text =>
      simp only [List.cons_append, dropOuterQualifiers, nestingOf, further]
      split <;> rfl

/-- Nothing is dropped where no qualifier stands outside brackets. -/
theorem dropOuterQualifiers_of_none {depth : Nat} {list : List Token}
    (unqualified : ¬ QualifiedOutside depth list) : dropOuterQualifiers depth list = list := by
  induction list generalizing depth with
  | nil => rfl
  | cons token rest further =>
    cases token with
    | mark symbol =>
      rw [qualifiedOutside_mark] at unqualified
      rw [dropOuterQualifiers, further unqualified]
    | word text =>
      rw [qualifiedOutside_word, not_or] at unqualified
      rw [dropOuterQualifiers, if_neg (by simpa using unqualified.1), further unqualified.2]

/-- Outside brackets a qualifier is dropped. -/
theorem dropOuterQualifiers_qualifier {qualifier : String}
    (isQualifier : qualifier ∈ qualifierWords) (rest : List Token) :
    dropOuterQualifiers 0 (.word qualifier :: rest) = dropOuterQualifiers 0 rest := by
  simp [dropOuterQualifiers, isQualifier]

end Dropping

section Written

/-- How many characters of the tokens are no spaces. -/
def inked (list : List Token) : Nat := (list.flatMap Token.chars).countP (· ≠ ' ')

/-- What is seen of a list of tokens is what is seen of the first and of the others. -/
theorem inked_cons (token : Token) (rest : List Token) :
    inked (token :: rest) = token.chars.countP (· ≠ ' ') + inked rest := by
  simp [inked]

/-- Writing tokens adds spaces only. -/
theorem countP_render (list : List Token) : (render list).countP (· ≠ ' ') = inked list := by
  induction list using render.induct with
  | case1 => rfl
  | case2 token => simp [render, inked]
  | case3 token next rest further =>
    rw [render, List.countP_append, List.countP_append, further, inked_cons token]
    split <;> simp

/-- Dropping qualifiers makes nothing longer to the eye. -/
theorem inked_dropOuterQualifiers_le (depth : Nat) (list : List Token) :
    inked (dropOuterQualifiers depth list) ≤ inked list := by
  induction list generalizing depth with
  | nil => exact Nat.le_refl _
  | cons token rest further =>
    cases token with
    | mark symbol =>
      rw [dropOuterQualifiers, inked_cons, inked_cons]
      exact Nat.add_le_add_left (further _) _
    | word text =>
      rw [dropOuterQualifiers, inked_cons]
      have fewer := further depth
      split
      · omega
      · rw [inked_cons]
        omega

/-- Something is seen of a qualifier. -/
theorem visible_of_mem_qualifierWords {qualifier : String}
    (isQualifier : qualifier ∈ qualifierWords) :
    0 < (Token.word qualifier).chars.countP (· ≠ ' ') := by
  have visible : ∀ word ∈ qualifierWords, 0 < (Token.word word).chars.countP (· ≠ ' ') := by decide
  exact visible qualifier isQualifier

/-- Where a qualifier stands outside brackets, fewer characters are left. -/
theorem inked_dropOuterQualifiers_lt {depth : Nat} {list : List Token}
    (qualified : QualifiedOutside depth list) :
    inked (dropOuterQualifiers depth list) < inked list := by
  induction list generalizing depth with
  | nil => exact absurd qualified (not_qualifiedOutside_nil depth)
  | cons token rest further =>
    cases token with
    | mark symbol =>
      rw [dropOuterQualifiers, inked_cons, inked_cons]
      exact Nat.add_lt_add_left (further ((qualifiedOutside_mark ..).mp qualified)) _
    | word text =>
      rw [dropOuterQualifiers, inked_cons]
      split
      · rename_i dropped
        have own := visible_of_mem_qualifierWords (by simpa using dropped.2)
        have fewer := inked_dropOuterQualifiers_le depth rest
        omega
      · rename_i stays
        have later := ((qualifiedOutside_word ..).mp qualified).resolve_left
          (by simpa using stays)
        rw [inked_cons]
        exact Nat.add_lt_add_left (further later) _

/-- The written tokens tell whether something was dropped. -/
theorem render_dropOuterQualifiers_iff {depth : Nat} {list : List Token} :
    render (dropOuterQualifiers depth list) = render list ↔ ¬ QualifiedOutside depth list := by
  constructor
  · intro same qualified
    have fewer := inked_dropOuterQualifiers_lt qualified
    rw [← countP_render, ← countP_render, same] at fewer
    exact Nat.lt_irrefl _ fewer
  · intro unqualified
    rw [dropOuterQualifiers_of_none unqualified]

end Written

section Parameters

variable {plain written spelling qualifier : String}

/-- The marks that make a pointer, a reference, an array or a function of a type. -/
def derivingMarks : List Char := ['*', '&', '[', ']', '(', ')']

/-- No mark outside brackets makes a pointer, a reference, an array or a function of the type, so
that its qualifiers outside brackets are those of the value. -/
def NamesValue (list : List Token) : Prop :=
  ∀ symbol ∈ derivingMarks, ¬ Outside 0 (.mark symbol) list

/-- A spelling with further qualifiers on the value that is handed over: behind any type, and in
front of one that names the value. -/
inductive Requalified (plain : String) : String → Prop where
  | plain : Requalified plain plain
  | behind {written qualifier : String} (before : Requalified plain written)
      (isQualifier : qualifier ∈ qualifierWords) :
      Requalified plain (written ++ " " ++ qualifier)
  | inFront {written qualifier : String} (before : Requalified plain written)
      (isQualifier : qualifier ∈ qualifierWords) (namesValue : NamesValue (tokens plain)) :
      Requalified plain (qualifier ++ " " ++ written)

/-- Whether a parameter is handed over by address does not depend on a word in front. -/
theorem isByAddress_word_cons (text : String) (list : List Token) :
    isByAddress (.word text :: list) = isByAddress list := by
  cases list <;> simp [isByAddress, List.getLast?_cons_cons]

/-- The marks that hand a parameter over by address do not nest. -/
theorem NamesValue.isByAddress_eq_false {list : List Token} (namesValue : NamesValue list)
    (closed : nestingOf 0 list = 0) : isByAddress list = false := by
  rw [Bool.eq_false_iff]
  intro byAddress
  unfold isByAddress at byAddress
  split at byAddress
  · rename_i symbol last
    obtain ⟨front, rfl⟩ := List.getLast?_eq_some_iff.mp last
    simp only [Bool.or_eq_true, beq_iff_eq] at byAddress
    have level : nestingOf 0 front = 0 := by
      rw [nestingOf_append] at closed
      rcases byAddress with (rfl | rfl) | rfl <;> exact closed
    have derives : symbol ∈ derivingMarks := by
      rcases byAddress with (rfl | rfl) | rfl <;> decide
    exact namesValue symbol derives ⟨front, [], rfl, level⟩
  · cases byAddress

/-- What further qualifiers on the value change of the tokens. -/
structure DiffersOnValue (plain written : List Token) : Prop where
  dropped : dropOuterQualifiers 0 written = dropOuterQualifiers 0 plain
  closed : nestingOf 0 written = 0
  /-- A qualifier behind the type hides that it is handed over by address. -/
  byAddress : isByAddress written = true → written = plain

namespace Requalified

/-- Further qualifiers on the value change the tokens on the value only. -/
theorem differsOnValue (balanced : Text.Balanced plain.toList)
    (requalified : Requalified plain written) :
    DiffersOnValue (tokens plain) (tokens written) := by
  have closed : nestingOf 0 (tokens plain) = 0 := by
    rw [nestingOf_tokens, balanced.nestingAfter_eq_zero]
  induction requalified with
  | plain => exact ⟨rfl, closed, fun _ => rfl⟩
  | @behind written qualifier _ isQualifier before =>
    rw [tokens_append_blank, tokens_qualifier isQualifier]
    refine ⟨?_, ?_, ?_⟩
    · rw [dropOuterQualifiers_append, before.closed, dropOuterQualifiers_qualifier isQualifier,
        dropOuterQualifiers, List.append_nil, before.dropped]
    · rw [nestingOf_append, before.closed]
      rfl
    · simp [isByAddress]
  | @inFront written qualifier _ isQualifier namesValue before =>
    rw [tokens_append_blank, tokens_qualifier isQualifier, List.singleton_append]
    refine ⟨?_, before.closed, ?_⟩
    · rw [dropOuterQualifiers_qualifier isQualifier, before.dropped]
    · intro byAddress
      rw [isByAddress_word_cons] at byAddress
      rw [before.byAddress byAddress, namesValue.isByAddress_eq_false closed] at byAddress
      cases byAddress

/-- Further qualifiers on the value do not change the form of a type that is not handed over by
address, or has no qualifier outside brackets itself. -/
theorem canonicalParameter_eq (balanced : Text.Balanced plain.toList)
    (requalified : Requalified plain written)
    (unqualified : isByAddress (tokens plain) = true → ¬ QualifiedOutside 0 (tokens plain)) :
    canonicalParameter written = canonicalParameter plain := by
  have differs := requalified.differsOnValue balanced
  unfold canonicalParameter
  dsimp only
  cases byAddress : isByAddress (tokens written) with
  | true => rw [← differs.byAddress byAddress, byAddress]
  | false =>
    cases plainly : isByAddress (tokens plain) with
    | false => simp [differs.dropped]
    | true => simp [differs.dropped, dropOuterQualifiers_of_none (unqualified plainly)]

end Requalified

/-- A qualifier behind a balanced type takes all qualifiers outside brackets with it. -/
theorem canonicalParameter_append_qualifier (balanced : Text.Balanced spelling.toList)
    (isQualifier : qualifier ∈ qualifierWords) :
    canonicalParameter (spelling ++ " " ++ qualifier) =
      String.ofList (render (dropOuterQualifiers 0 (tokens spelling))) := by
  have differs := (Requalified.plain.behind isQualifier).differsOnValue balanced
  have byValue : isByAddress (tokens (spelling ++ " " ++ qualifier)) = false := by
    rw [tokens_append_blank, tokens_qualifier isQualifier]
    simp [isByAddress]
  unfold canonicalParameter
  dsimp only
  rw [byValue, differs.dropped]
  rfl

/-- A qualifier behind a balanced type changes nothing, unless the type is handed over by
address and another qualifier stands outside its brackets. -/
theorem canonicalParameter_append_qualifier_eq_iff (balanced : Text.Balanced spelling.toList)
    (isQualifier : qualifier ∈ qualifierWords) :
    canonicalParameter (spelling ++ " " ++ qualifier) = canonicalParameter spelling ↔
      (isByAddress (tokens spelling) = true → ¬ QualifiedOutside 0 (tokens spelling)) := by
  constructor
  · intro same byAddress
    rw [canonicalParameter_append_qualifier balanced isQualifier, canonicalParameter,
      String.ofList_inj] at same
    rw [byAddress, if_pos rfl] at same
    exact render_dropOuterQualifiers_iff.mp same
  · intro unqualified
    exact (Requalified.plain.behind isQualifier).canonicalParameter_eq balanced unqualified

/-- A qualifier in front of a type changes the form exactly where the type is handed over by
address: what it stands in front of is then what is pointed at. -/
theorem canonicalParameter_qualifier_append_eq_iff (isQualifier : qualifier ∈ qualifierWords) :
    canonicalParameter (qualifier ++ " " ++ spelling) = canonicalParameter spelling ↔
      isByAddress (tokens spelling) = false := by
  have written : tokens (qualifier ++ " " ++ spelling) = .word qualifier :: tokens spelling := by
    rw [tokens_append_blank, tokens_qualifier isQualifier, List.singleton_append]
  have more : inked (tokens spelling) < inked (.word qualifier :: tokens spelling) := by
    have visible := visible_of_mem_qualifierWords isQualifier
    rw [inked_cons]
    omega
  unfold canonicalParameter
  dsimp only
  rw [written, isByAddress_word_cons, String.ofList_inj]
  cases isByAddress (tokens spelling) with
  | false => simp [dropOuterQualifiers_qualifier isQualifier]
  | true =>
    rw [if_pos rfl, if_pos rfl]
    refine iff_of_false (fun same => ?_) Bool.true_eq_false.mp
    rw [← countP_render, ← countP_render, same] at more
    exact Nat.lt_irrefl _ more

end Parameters

section Keys

/-- Two declarations of one entity whose parameters are spelled alike, up to further qualifiers
on the values that are handed over. -/
structure Requalifies (one other : Declaration) (plain written : List String) : Prop where
  family : one.kind.family = other.kind.family
  name : one.scopedName = other.scopedName
  signatures : ∃ oneSignature otherSignature, one.signature = some oneSignature ∧
    other.signature = some otherSignature ∧
    oneSignature.parameterTypes = plain.map canonicalParameter ∧
    otherSignature.parameterTypes = written.map canonicalParameter ∧
    oneSignature.isConst = otherSignature.isConst ∧
    oneSignature.isVariadic = otherSignature.isVariadic
  balanced : ∀ spelling ∈ plain, Text.Balanced spelling.toList
  parameters : List.Forall₂ Requalified plain written

/-- Lists of types that differ in qualifiers on the values have the same forms. -/
theorem map_canonicalParameter_eq {plain written : List String}
    (requalified : List.Forall₂ Requalified plain written)
    (balanced : ∀ spelling ∈ plain, Text.Balanced spelling.toList)
    (unqualified : ∀ spelling ∈ plain,
      isByAddress (tokens spelling) = true → ¬ QualifiedOutside 0 (tokens spelling)) :
    plain.map canonicalParameter = written.map canonicalParameter := by
  induction requalified with
  | nil => rfl
  | cons first _ further =>
    rw [List.forall_mem_cons] at balanced unqualified
    rw [List.map_cons, List.map_cons, first.canonicalParameter_eq balanced.1 unqualified.1,
      further balanced.2 unqualified.2]

/-- Qualifiers on the values do not tell declarations apart whose pointers point at nothing
qualified. -/
theorem Requalifies.key_eq {one other : Declaration} {plain written : List String}
    (requalifies : Requalifies one other plain written)
    (unqualified : ∀ spelling ∈ plain,
      isByAddress (tokens spelling) = true → ¬ QualifiedOutside 0 (tokens spelling)) :
    one.key = other.key := by
  have types := map_canonicalParameter_eq requalifies.parameters requalifies.balanced unqualified
  exact Declaration.AlikeUpToTypes.key_eq
    ⟨requalifies.family, requalifies.name, types ▸ requalifies.signatures⟩

end Keys

/-- What a qualifier at an end of a parameter type counts for. Behind a balanced type it changes
nothing, unless the type is handed over by address and some qualifier stands outside its brackets
already. In front it changes the form exactly where the type is handed over by address. Further
qualifiers on values do not tell declarations apart, as long as no pointer or reference among the
parameters has a qualifier outside its brackets. -/
theorem endQualifiers_counted {qualifier : String} (isQualifier : qualifier ∈ qualifierWords)
    (spelling : String) :
    (Text.Balanced spelling.toList →
      (canonicalParameter (spelling ++ " " ++ qualifier) = canonicalParameter spelling ↔
        (isByAddress (tokens spelling) = true → ¬ QualifiedOutside 0 (tokens spelling)))) ∧
      (canonicalParameter (qualifier ++ " " ++ spelling) = canonicalParameter spelling ↔
        isByAddress (tokens spelling) = false) ∧
      ∀ {one other : Declaration} {plain written : List String},
        Requalifies one other plain written →
        (∀ parameter ∈ plain,
          isByAddress (tokens parameter) = true → ¬ QualifiedOutside 0 (tokens parameter)) →
        one.key = other.key := by
  refine ⟨fun balanced => ?_, ?_, fun requalifies unqualified => ?_⟩
  · exact canonicalParameter_append_qualifier_eq_iff balanced isQualifier
  · exact canonicalParameter_qualifier_append_eq_iff isQualifier
  · exact requalifies.key_eq unqualified

/-- The declaration of a function that takes one parameter of a type. -/
def takingDeclaration (type : String) : Declaration where
  kind := .freeFunction
  name := "print"
  signature := some ⟨[⟨none, canonicalParameter type, false⟩], none, false, false⟩
  line := 1

/-- The prototype may leave out that the pointer itself is constant. -/
theorem endQualifiers_counted_pointer :
    Text.Balanced "char*".toList ∧ "const" ∈ qualifierWords ∧
      canonicalParameter ("char*" ++ " " ++ "const") = canonicalParameter "char*" ∧
      canonicalParameter ("const" ++ " " ++ "char*") ≠ canonicalParameter "char*" ∧
      Requalifies (takingDeclaration "char*") (takingDeclaration ("char*" ++ " " ++ "const"))
        ["char*"] ["char*" ++ " " ++ "const"] ∧
      (takingDeclaration "char*").key = (takingDeclaration ("char*" ++ " " ++ "const")).key := by
  have isQualifier : "const" ∈ qualifierWords := by decide
  obtain ⟨behind, inFront, keys⟩ := endQualifiers_counted isQualifier "char*"
  have balanced : Text.Balanced "char*".toList := by decide
  have list : tokens "char*" = [.word "char", .mark '*'] := by decide +kernel
  have unqualified : ¬ QualifiedOutside 0 (tokens "char*") := by
    rw [list, qualifiedOutside_word, qualifiedOutside_mark]
    simp [not_qualifiedOutside_nil, qualifierWords]
  have requalifies : Requalifies (takingDeclaration "char*")
      (takingDeclaration ("char*" ++ " " ++ "const")) ["char*"] ["char*" ++ " " ++ "const"] :=
    { family := rfl
      name := rfl
      signatures := ⟨_, _, rfl, rfl, rfl, rfl, rfl, rfl⟩
      balanced := by simpa using balanced
      parameters := .cons (Requalified.plain.behind isQualifier) .nil }
  refine ⟨balanced, isQualifier, (behind balanced).mpr fun _ => unqualified, ?_,
    requalifies, keys requalifies (by simpa using fun _ => unqualified)⟩
  intro same
  have byValue := inFront.mp same
  rw [list] at byValue
  cases byValue

/-- Behind a pointer to constant characters a qualifier of the pointer itself takes that of the
characters with it: the two spellings have different forms, and the second has that of a pointer
to characters. -/
theorem constantPointee_dropped :
    Text.Balanced "const char*".toList ∧
      (tokens "const char*").getLast? = some (.mark '*') ∧
      canonicalParameter ("const char*" ++ " " ++ "const") ≠ canonicalParameter "const char*" ∧
      canonicalParameter ("const char*" ++ " " ++ "const") =
        canonicalParameter ("char*" ++ " " ++ "const") ∧
      (takingDeclaration "const char*").key ≠
        (takingDeclaration ("const char*" ++ " " ++ "const")).key := by
  decide +kernel

end Spelling

end DeclGraph
