import DeclGraph.Proofs.Spelling.ArgumentLists

/-!
# Types as trees

A type is a path of identifiers, some of them with types as their arguments, or a builtin type or
a number, with qualifiers in front and pointers, references and further qualifiers behind it. It
refers to the names of the paths in it, from the outside in and from left to right. The readings
of a spelling know nothing of this tree: they leave out what stands in angle brackets, cut what
stands there at the commas and start over with each piece. They list the names of the tree all the
same, each at its first place.
-/

namespace DeclGraph

namespace Spelling

/-- A word that can stand in a type and does not speak of operators. -/
structure IsTypeWord (text : String) : Prop extends IsSimple text where
  no_operator : ¬ "operator".toList <:+: text.toList

/-- A word that can stand in the path of a type. -/
structure IsIdentifier (text : String) : Prop extends IsTypeWord text where
  no_number : ∀ c ∈ text.toList.head?, c.isDigit = false

instance {text : String} : Decidable (IsTypeWord text) :=
  decidable_of_iff (IsSimple text ∧ Text.occursIn "operator".toList text.toList = false) <| by
    rw [← Bool.not_eq_true (Text.occursIn _ _), Text.occursIn_iff]
    exact ⟨fun ⟨simple, silent⟩ => ⟨simple, silent⟩,
      fun word => ⟨word.toIsSimple, word.no_operator⟩⟩

instance {text : String} : Decidable (IsIdentifier text) :=
  decidable_of_iff (IsTypeWord text ∧ text.toList.head?.any Char.isDigit = false) <| by
    rw [Option.any_eq_false]
    exact ⟨fun ⟨word, first⟩ => ⟨word, fun c isFirst => by simpa using first c isFirst⟩,
      fun identifier => ⟨identifier.toIsTypeWord, fun c isFirst => by
        simp [identifier.no_number c isFirst]⟩⟩

/-- The identifiers of paths. -/
abbrev Identifier := { text : String // IsIdentifier text }

/-- The words `const` and `volatile`. -/
abbrev Qualifier := { word : String // word ∈ qualifierWords }

/-- The words that builtin types are made of. -/
abbrev BuiltinWord := { word : String // word ∈ builtinWords }

/-- A whole number, with marks between its groups of digits. -/
structure Numeral where
  negative : Bool
  first : String
  further : List String
  groups : ∀ group ∈ first :: further, IsTypeWord group
  number : ∃ c ∈ first.toList.head?, c.isDigit

/-- What makes another type of a type. -/
inductive Derivation where
  | pointer
  | reference
  | qualifiedPointer (qualifier : Qualifier)

/-- What is no path and refers to nothing. -/
inductive PlainType where
  | builtin (first : BuiltinWord) (further : List BuiltinWord)
  | numeral (value : Numeral)

mutual

/-- A type, with the qualifiers in front of it and what is derived from it behind it. -/
inductive TypeTree where
  | named (front : List Qualifier) (path : TypePath) (back : List Derivation)
  | plain (front : List Qualifier) (type : PlainType) (back : List Derivation)

/-- The segments of a qualified name. -/
inductive TypePath where
  | last (segment : TypeSegment)
  | inside (segment : TypeSegment) (rest : TypePath)

/-- An identifier, be it with template arguments. -/
inductive TypeSegment where
  | bare (name : Identifier)
  | applied (name : Identifier) (arguments : TypeArguments)

/-- Template arguments, at least one. -/
inductive TypeArguments where
  | last (type : TypeTree)
  | more (type : TypeTree) (rest : TypeArguments)

end

/-- The tokens of a derivation. -/
def Derivation.tokens : Derivation → List Token
  | .pointer => [.mark '*']
  | .reference => [.mark '&']
  | .qualifiedPointer qualifier => [.mark '*', .word qualifier.val]

/-- The words of a type that refers to nothing. -/
def PlainType.words : PlainType → List String
  | .builtin first further => (first :: further).map (·.val)
  | .numeral value => value.first :: value.further

/-- The tokens of a type that refers to nothing. -/
def PlainType.tokens : PlainType → List Token
  | .builtin first further => (first :: further).map fun word => .word word.val
  | .numeral value => (if value.negative then [.mark '-'] else []) ++
    .word value.first :: value.further.flatMap fun group => [.mark '\x27', .word group]

/-- The tokens of qualifiers. -/
def qualifierTokens (qualifiers : List Qualifier) : List Token :=
  qualifiers.map fun qualifier => .word qualifier.val

mutual

/-- The tokens of a type in the order in which they are written. -/
def TypeTree.tokens : TypeTree → List Token
  | .named front path back =>
    qualifierTokens front ++ (pathTokens path.segments ++ back.flatMap Derivation.tokens)
  | .plain front type back =>
    qualifierTokens front ++ (type.tokens ++ back.flatMap Derivation.tokens)

/-- The segments of a path with the tokens of their arguments. -/
def TypePath.segments : TypePath → List PathSegment
  | .last segment => [segment.segment]
  | .inside segment rest => segment.segment :: rest.segments

/-- A segment with the tokens of its arguments. -/
def TypeSegment.segment : TypeSegment → PathSegment
  | .bare name => ⟨name.val, none⟩
  | .applied name arguments => ⟨name.val, some arguments.tokens⟩

/-- The tokens of arguments, with commas between them. -/
def TypeArguments.tokens : TypeArguments → List Token
  | .last type => type.tokens
  | .more type rest => type.tokens ++ .mark ',' :: rest.tokens

end

/-- The name of a path without template arguments. -/
def TypePath.name (path : TypePath) : String :=
  "::".intercalate (path.segments.map (·.name))

mutual

/-- The names that a type refers to: that of its path first, unless it is builtin, and then those
of the arguments in it. -/
def TypeTree.names : TypeTree → List String
  | .named _ path _ =>
    (if builtinWords.contains path.name then [] else [path.name]) ++ path.argumentNames
  | .plain _ _ _ => []

/-- The names in the arguments of a path, segment by segment. -/
def TypePath.argumentNames : TypePath → List String
  | .last segment => segment.argumentNames
  | .inside segment rest => segment.argumentNames ++ rest.argumentNames

/-- The names in the arguments of a segment. -/
def TypeSegment.argumentNames : TypeSegment → List String
  | .bare _ => []
  | .applied _ arguments => arguments.names

/-- The names in arguments, one argument after the other. -/
def TypeArguments.names : TypeArguments → List String
  | .last type => type.names
  | .more type rest => type.names ++ rest.names

end

mutual

/-- How many argument lists deep a type is nested. -/
def TypeTree.depth : TypeTree → Nat
  | .named _ path _ => path.depth
  | .plain _ _ _ => 0

/-- How many argument lists deep a path is nested. -/
def TypePath.depth : TypePath → Nat
  | .last segment => segment.depth
  | .inside segment rest => max segment.depth rest.depth

/-- How many argument lists deep a segment is nested, its own among them. -/
def TypeSegment.depth : TypeSegment → Nat
  | .bare _ => 0
  | .applied _ arguments => arguments.depth + 1

/-- How many argument lists deep the arguments of a list are nested. -/
def TypeArguments.depth : TypeArguments → Nat
  | .last type => type.depth
  | .more type rest => max type.depth rest.depth

end

/-- The canonical spelling of a type. -/
def TypeTree.text (type : TypeTree) : String := String.ofList (render type.tokens)

/-- The name of the path of a type, unless it is builtin. -/
def TypeTree.ownName? : TypeTree → Option String
  | .named _ path _ => if builtinWords.contains path.name then none else some path.name
  | .plain _ _ _ => none

/-- The types that arguments list. -/
def TypeArguments.types : TypeArguments → List TypeTree
  | .last type => [type]
  | .more type rest => type :: rest.types

/-- The types in the arguments of a segment. -/
def TypeSegment.parts : TypeSegment → List TypeTree
  | .bare _ => []
  | .applied _ arguments => arguments.types

/-- The types in the arguments of a path, segment by segment. -/
def TypePath.parts : TypePath → List TypeTree
  | .last segment => segment.parts
  | .inside segment rest => segment.parts ++ rest.parts

/-- The types in the arguments of a type. -/
def TypeTree.parts : TypeTree → List TypeTree
  | .named _ path _ => path.parts
  | .plain _ _ _ => []

section Parts

/-- The names in arguments are those in their types. -/
theorem TypeArguments.names_eq (arguments : TypeArguments) :
    arguments.names = arguments.types.flatMap TypeTree.names := by
  match arguments with
  | .last type => simp [TypeArguments.names, TypeArguments.types]
  | .more type rest => simp [TypeArguments.names, TypeArguments.types, rest.names_eq]

/-- The names in the arguments of a segment are those in its parts. -/
theorem TypeSegment.argumentNames_eq (segment : TypeSegment) :
    segment.argumentNames = segment.parts.flatMap TypeTree.names := by
  cases segment with
  | bare => simp [TypeSegment.argumentNames, TypeSegment.parts]
  | applied name arguments =>
    simpa [TypeSegment.argumentNames, TypeSegment.parts] using arguments.names_eq

/-- The names in the arguments of a path are those in its parts. -/
theorem TypePath.argumentNames_eq (path : TypePath) :
    path.argumentNames = path.parts.flatMap TypeTree.names := by
  match path with
  | .last segment => simpa [TypePath.argumentNames, TypePath.parts] using segment.argumentNames_eq
  | .inside segment rest =>
    simp [TypePath.argumentNames, TypePath.parts, segment.argumentNames_eq, rest.argumentNames_eq]

/-- A type refers to what its path names and to what its parts refer to. -/
theorem TypeTree.names_eq (type : TypeTree) :
    type.names = type.ownName?.toList ++ type.parts.flatMap TypeTree.names := by
  cases type with
  | named front path back =>
    rw [TypeTree.names, path.argumentNames_eq, TypeTree.ownName?, TypeTree.parts]
    split <;> rfl
  | plain front type back => simp [TypeTree.names, TypeTree.ownName?, TypeTree.parts]

/-- A type among arguments is no deeper than they are. -/
theorem TypeArguments.depth_le_of_mem {arguments : TypeArguments} {part : TypeTree}
    (member : part ∈ arguments.types) : part.depth ≤ arguments.depth := by
  match arguments with
  | .last type => exact Nat.le_of_eq (congrArg TypeTree.depth (List.mem_singleton.mp member))
  | .more type rest =>
    rw [TypeArguments.depth]
    rcases List.mem_cons.mp member with rfl | further
    · exact Nat.le_max_left _ _
    · exact Nat.le_trans (TypeArguments.depth_le_of_mem further) (Nat.le_max_right _ _)

/-- A part of a segment is less deep than the segment. -/
theorem TypeSegment.depth_lt_of_mem {segment : TypeSegment} {part : TypeTree}
    (member : part ∈ segment.parts) : part.depth < segment.depth := by
  cases segment with
  | bare => cases member
  | applied name arguments => exact Nat.lt_succ_of_le (TypeArguments.depth_le_of_mem member)

/-- A part of a path is less deep than the path. -/
theorem TypePath.depth_lt_of_mem {path : TypePath} {part : TypeTree}
    (member : part ∈ path.parts) : part.depth < path.depth := by
  match path with
  | .last segment => exact TypeSegment.depth_lt_of_mem member
  | .inside segment rest =>
    rw [TypePath.depth]
    rcases List.mem_append.mp member with own | further
    · exact Nat.lt_of_lt_of_le (TypeSegment.depth_lt_of_mem own) (Nat.le_max_left _ _)
    · exact Nat.lt_of_lt_of_le (TypePath.depth_lt_of_mem further) (Nat.le_max_right _ _)

/-- The parts of a type are nested less deep. -/
theorem TypeTree.depth_lt_of_mem {type part : TypeTree} (member : part ∈ type.parts) :
    part.depth < type.depth := by
  cases type with
  | named front path back => exact TypePath.depth_lt_of_mem member
  | plain => cases member

end Parts

section Plain

variable {type : PlainType}

/-- The words of a plain type are words of types. -/
theorem PlainType.isTypeWord (type : PlainType) : ∀ word ∈ type.words, IsTypeWord word := by
  cases type with
  | builtin first further =>
    have builtinWord : ∀ word ∈ builtinWords, IsTypeWord word := by decide +kernel
    exact List.forall_mem_map.mpr fun word _ => builtinWord word.val word.property
  | numeral value => exact value.groups

/-- The tokens of a plain type that are part of a name are its words. -/
theorem PlainType.filter_tokens (type : PlainType) :
    type.tokens.filter Token.isOfName = type.words.map .word := by
  have kept : ∀ word ∈ type.words, (Token.word word).isOfName := fun word member => by
    simpa [Token.isOfName] using (type.isTypeWord word member).no_qualifier
  cases type with
  | builtin first further =>
    have all : (PlainType.builtin first further).tokens =
        (PlainType.builtin first further).words.map .word := by
      simp [PlainType.tokens, PlainType.words]
    rw [all, List.filter_eq_self]
    exact List.forall_mem_map.mpr kept
  | numeral value =>
    have groups : ∀ list : List String, (∀ group ∈ list, (Token.word group).isOfName) →
        (list.flatMap fun group => [Token.mark '\x27', .word group]).filter Token.isOfName =
          list.map .word := by
      intro list listed
      induction list with
      | nil => rfl
      | cons group list further =>
        rw [List.forall_mem_cons] at listed
        have mark : (Token.mark '\x27').isOfName = false := rfl
        simp [listed.1, mark, further listed.2]
    rw [PlainType.words, List.forall_mem_cons] at kept
    have sign : (Token.mark '-').isOfName = false := rfl
    rw [PlainType.tokens, PlainType.words, List.filter_append, List.filter_cons_of_pos kept.1,
      groups _ kept.2]
    split <;> simp [sign]

/-- The words of a plain type can be read back. -/
theorem PlainType.isRead_words (type : PlainType) :
    ∀ token ∈ type.words.map Token.word, token.IsRead :=
  List.forall_mem_map.mpr fun word listed => (type.isTypeWord word listed).isRead

/-- What is written for the words starts with a character of a word. -/
theorem PlainType.exists_first (type : PlainType) :
    ∃ c text, render (type.words.map .word) = c :: text ∧ isWordChar c := by
  obtain ⟨first, further, words⟩ : ∃ first further, type.words = first :: further := by
    cases type <;> exact ⟨_, _, rfl⟩
  have isWord := type.isTypeWord first (words ▸ List.mem_cons_self)
  obtain ⟨c, text, chars⟩ := List.exists_cons_of_ne_nil isWord.nonempty
  obtain ⟨more, written⟩ := exists_render_cons (.word first) (further.map .word)
  refine ⟨c, text ++ more, ?_, isWord.word c (by simp [chars])⟩
  rw [words, List.map_cons, written, Token.chars, chars, List.cons_append]

/-- A token of a plain type is one of its words, a minus or an apostrophe. -/
theorem PlainType.mem_tokens {token : Token} (member : token ∈ type.tokens) :
    (∃ word ∈ type.words, token = .word word) ∨ token = .mark '-' ∨ token = .mark '\x27' := by
  cases type with
  | builtin first further =>
    obtain ⟨builtin, listed, rfl⟩ := List.mem_map.mp member
    exact .inl ⟨builtin.val, List.mem_map.mpr ⟨builtin, listed, rfl⟩, rfl⟩
  | numeral value =>
    rcases List.mem_append.mp member with sign | member
    · split at sign
      · exact .inr (.inl (List.mem_singleton.mp sign))
      · cases sign
    rcases List.mem_cons.mp member with rfl | member
    · exact .inl ⟨value.first, List.mem_cons_self, rfl⟩
    obtain ⟨group, listed, inside⟩ := List.mem_flatMap.mp member
    simp only [List.mem_cons, List.not_mem_nil, or_false] at inside
    rcases inside with rfl | rfl
    · exact .inr (.inr rfl)
    · exact .inl ⟨group, List.mem_cons_of_mem _ listed, rfl⟩

/-- Tokens that can be part of an argument: they can be read back, they close their angle brackets,
outside of which no barred marks stand, and they do not speak of operators. -/
structure Enclosable (barred : List Char) (list : List Token) : Prop where
  read : ∀ token ∈ list, token.IsRead
  closed : Closed barred (render list)
  no_operator : ¬ SpeaksOfOperator list

/-- A plain type has no other marks. -/
theorem PlainType.mark_notMem {symbol : Char} (other : symbol ∉ ['-', '\x27']) :
    .mark symbol ∉ type.tokens := by
  intro member
  rcases type.mem_tokens member with ⟨_, _, same⟩ | same | same
  · cases same
  all_goals exact other (by simp [Token.mark.inj same])

/-- A plain type can be an argument. -/
theorem PlainType.enclosable (type : PlainType) : Enclosable [','] type.tokens := by
  have read : ∀ token ∈ type.tokens, token.IsRead := by
    intro token member
    rcases type.mem_tokens member with ⟨word, listed, rfl⟩ | rfl | rfl
    · exact (type.isTypeWord word listed).isRead
    all_goals exact .of_mark (by decide) (by decide)
  have plain := plain_of_unmarked read (type.mark_notMem (by decide)) (type.mark_notMem (by decide))
  refine ⟨read, .of_plain plain fun c member comma => ?_, ?_⟩
  · rw [List.mem_singleton.mp comma, mark_mem_render_iff (fun token member =>
      (read token member).legible) (by decide) (by decide)] at member
    exact type.mark_notMem (by decide) member
  · rintro ⟨word, member, occurs⟩
    rcases type.mem_tokens member with ⟨_, listed, ⟨⟩⟩ | same | same
    · exact (type.isTypeWord word listed).no_operator occurs
    all_goals cases same

/-- The words of a type that refers to nothing are those of a builtin type or start as a number. -/
theorem PlainType.refersToNothing (type : PlainType) :
    (∀ word ∈ type.words, word ∈ builtinWords) ∨
      (render (type.words.map .word)).head?.any Char.isDigit := by
  cases type with
  | builtin first further =>
    refine .inl fun word member => ?_
    obtain ⟨builtin, -, rfl⟩ := List.mem_map.mp member
    exact builtin.property
  | numeral value =>
    obtain ⟨c, isFirst, digit⟩ := value.number
    obtain ⟨more, written⟩ := exists_render_cons (.word value.first) (value.further.map .word)
    refine .inr ?_
    rw [PlainType.words, List.map_cons, written, Token.chars, List.head?_append, isFirst]
    exact digit

end Plain

section Around

variable {barred : List Char} {first second front back list : List Token}

/-- Qualifiers may stand around a path and are part of no name. -/
theorem qualifierTokens_around (qualifiers : List Qualifier) :
    (∀ token ∈ qualifierTokens qualifiers, token.StandsAround) ∧
      (qualifierTokens qualifiers).filter Token.isOfName = [] := by
  rw [qualifierTokens, List.filter_eq_nil_iff]
  refine ⟨List.forall_mem_map.mpr fun qualifier _ => qualifier.property,
    List.forall_mem_map.mpr fun qualifier _ => ?_⟩
  simp [Token.isOfName, qualifier.property]

/-- A derivation may stand behind a path, is part of no name and begins with a mark. -/
theorem Derivation.tokens_around (derivation : Derivation) :
    (∀ token ∈ derivation.tokens, token.StandsAround) ∧
      (∀ token ∈ derivation.tokens, token.isOfName = false) ∧
      ∃ symbol rest, derivation.tokens = .mark symbol :: rest := by
  cases derivation with
  | pointer => simp [Derivation.tokens, Token.StandsAround, Token.isOfName]
  | reference => simp [Derivation.tokens, Token.StandsAround, Token.isOfName]
  | qualifiedPointer qualifier =>
    have own := qualifier.property
    simp [Derivation.tokens, Token.StandsAround, Token.isOfName, own]

/-- Derivations may stand behind a path and are part of no name. -/
theorem derivationTokens_around (derivations : List Derivation) :
    (∀ token ∈ derivations.flatMap Derivation.tokens, token.StandsAround) ∧
      (derivations.flatMap Derivation.tokens).filter Token.isOfName = [] := by
  rw [List.filter_eq_nil_iff]
  refine ⟨fun token member => ?_, fun token member => ?_⟩
  all_goals obtain ⟨derivation, -, inside⟩ := List.mem_flatMap.mp member
  · exact derivation.tokens_around.1 token inside
  · simp [derivation.tokens_around.2.1 token inside]

/-- Derivations start with a mark. -/
theorem word_notMem_head?_derivationTokens (derivations : List Derivation) (word : String) :
    .word word ∉ (derivations.flatMap Derivation.tokens).head? := by
  cases derivations with
  | nil => simp
  | cons derivation derivations =>
    obtain ⟨symbol, rest, starts⟩ := derivation.tokens_around.2.2
    simp [starts]

/-- What can be part of an argument can be so with no marks barred. -/
theorem Enclosable.unbarred (enclosable : Enclosable barred list) : Enclosable [] list :=
  ⟨enclosable.read, enclosable.closed.unbarred, enclosable.no_operator⟩

/-- An argument and a list of arguments behind a comma make a list of arguments. -/
theorem Enclosable.append_comma (firstEnclosable : Enclosable [','] first)
    (secondEnclosable : Enclosable [] second) : Enclosable [] (first ++ .mark ',' :: second) where
  read := by
    simp only [List.forall_mem_append, List.forall_mem_cons]
    exact ⟨firstEnclosable.read, .of_mark (by decide) (by decide), secondEnclosable.read⟩
  closed := by
    rw [render_append_mark, render_mark_cons (by decide)]
    exact firstEnclosable.closed.unbarred.append
      (secondEnclosable.closed.other (by decide) List.not_mem_nil)
  no_operator := by
    rw [speaksOfOperator_append, speaksOfOperator_mark_cons, not_or]
    exact ⟨firstEnclosable.no_operator, secondEnclosable.no_operator⟩

/-- What stands around an argument does not end it. -/
theorem Enclosable.surround (enclosable : Enclosable [','] list)
    (frontAround : ∀ token ∈ front, token.StandsAround)
    (backAround : ∀ token ∈ back, token.StandsAround) :
    Enclosable [','] (front ++ (list ++ back)) where
  read := isRead_around frontAround backAround enclosable.read
  closed := by
    -- Neither the tokens around the argument nor the blanks between them hold a comma.
    have ofAround : ∀ {list : List Token}, (∀ token ∈ list, token.StandsAround) →
        Closed [','] (render list) := by
      intro list around
      refine .of_plain (plain_of_mem_around around) fun c member comma => ?_
      rw [List.mem_singleton.mp comma, mark_mem_render_iff (fun token member =>
        (around token member).isRead.legible) (by decide) (by decide)] at member
      exact absurd (around _ member) (by simp [Token.StandsAround])
    have ofGap : ∀ {first second : List Token}, Closed [','] (gap first second) := fun {_ _} =>
      .of_plain plain_of_mem_gap fun c member => by simp [eq_blank_of_mem_gap member]
    rw [render_append, render_append]
    exact (ofAround frontAround).append (ofGap.append (enclosable.closed.append
      (ofGap.append (ofAround backAround))))
  no_operator := by
    rw [speaksOfOperator_around_iff frontAround backAround]
    exact enclosable.no_operator

end Around

/-- A segment of the path of a type, with arguments that can be read. -/
structure IsTypeSegment (segment : PathSegment) : Prop where
  identifier : IsIdentifier segment.name
  enclosable : ∀ list ∈ segment.arguments?, Enclosable [] list

section Segments

variable {segment : PathSegment} {path : List PathSegment}

/-- A segment of the path of a type can be written. -/
theorem IsTypeSegment.isWritable (ofType : IsTypeSegment segment) : segment.IsWritable where
  simple := ofType.identifier.toIsSimple
  read := fun list listed => (ofType.enclosable list listed).read
  closed := fun list listed => (ofType.enclosable list listed).closed

/-- A segment of the path of a type does not speak of operators. -/
theorem IsTypeSegment.no_operator (ofType : IsTypeSegment segment) :
    ¬ SpeaksOfOperator segment.tokens := by
  have ofName := ofType.identifier.no_operator
  unfold PathSegment.tokens
  split
  · rw [speaksOfOperator_word_cons, not_or]
    exact ⟨ofName, not_speaksOfOperator_nil⟩
  · rename_i list listed
    rw [speaksOfOperator_word_cons, speaksOfOperator_mark_cons, speaksOfOperator_append,
      speaksOfOperator_mark_cons, not_or, not_or]
    exact ⟨ofName, (ofType.enclosable list listed).no_operator, not_speaksOfOperator_nil⟩

/-- The path of a type can be an argument. -/
theorem enclosable_pathTokens (ofType : ∀ segment ∈ path, IsTypeSegment segment) :
    Enclosable [','] (pathTokens path) where
  read := isRead_pathTokens fun segment member => (ofType segment member).isWritable
  closed := render_pathTokens path ▸
    closed_path (fun segment member => (ofType segment member).isWritable)
      (List.forall_mem_singleton.mpr (by decide))
  no_operator := by
    induction path using pathTokens.induct with
    | case1 => exact not_speaksOfOperator_nil
    | case2 segment => exact (ofType segment List.mem_cons_self).no_operator
    | case3 segment next rest further =>
      rw [List.forall_mem_cons] at ofType
      rw [pathTokens, speaksOfOperator_append, speaksOfOperator_mark_cons,
        speaksOfOperator_mark_cons, not_or]
      exact ⟨ofType.1.no_operator, further ofType.2⟩

end Segments

mutual

/-- A type can be an argument: no comma ends it before its end. -/
theorem TypeTree.enclosable (type : TypeTree) : Enclosable [','] type.tokens := by
  match type with
  | .named front path back =>
    exact (enclosable_pathTokens path.isTypeSegment).surround (qualifierTokens_around front).1
      (derivationTokens_around back).1
  | .plain front type back =>
    exact type.enclosable.surround (qualifierTokens_around front).1 (derivationTokens_around back).1

/-- Written out, the segments of a path in a tree are segments of a type. -/
theorem TypePath.isTypeSegment (path : TypePath) :
    ∀ segment ∈ path.segments, IsTypeSegment segment := by
  match path with
  | .last segment => exact List.forall_mem_singleton.mpr segment.isTypeSegment
  | .inside segment rest =>
    exact List.forall_mem_cons.mpr ⟨segment.isTypeSegment, rest.isTypeSegment⟩

/-- Written out, a single segment of a tree is one of a type, too. -/
theorem TypeSegment.isTypeSegment (segment : TypeSegment) : IsTypeSegment segment.segment := by
  match segment with
  | .bare name => exact ⟨name.property, nofun⟩
  | .applied name arguments =>
    refine ⟨name.property, ?_⟩
    rintro _ ⟨⟩
    exact arguments.enclosable

/-- Arguments can stand in an argument list. -/
theorem TypeArguments.enclosable (arguments : TypeArguments) : Enclosable [] arguments.tokens := by
  match arguments with
  | .last type => exact type.enclosable.unbarred
  | .more type rest => exact type.enclosable.append_comma rest.enclosable

end

section BaseNames

/-- A qualified name is builtin if it is a single builtin word. -/
theorem isBuiltin_intercalate {segments : List String}
    (simple : ∀ segment ∈ segments, IsSimple segment) (nonempty : segments ≠ []) :
    isBuiltin ("::".intercalate segments) =
      builtinWords.contains ("::".intercalate segments) := by
  have written : "::".intercalate segments = String.ofList (render (nameTokens segments)) := by
    rw [← String.toList_inj, toList_intercalate, render_nameTokens, String.toList_ofList]
  have words : (tokens ("::".intercalate segments)).filter Token.isOfName =
      nameTokens segments := by
    rw [written, tokens_render (isRead_nameTokens simple), filter_nameTokens simple]
  rw [isBuiltin, words]
  obtain ⟨segment, further, rfl⟩ := List.exists_cons_of_ne_nil nonempty
  cases further with
  | nil => simp [nameTokens, Token.isBuiltin, String.intercalate_singleton]
  | cons next rest =>
    have separated : "::".intercalate (segment :: next :: rest) ∉ builtinWords := by
      have unmarked : ∀ word ∈ builtinWords, ':' ∉ word.toList := by decide
      intro member
      have absent := unmarked _ member
      rw [toList_intercalate] at absent
      simp [joined] at absent
    have colon : (Token.mark ':').isBuiltin = false := rfl
    rw [List.contains_eq_mem, decide_eq_false separated, nameTokens]
    simp [colon]

/-- The segments in a type tree make the path of a type. -/
theorem TypePath.isTypePath (path : TypePath) : IsTypePath path.segments where
  nonempty := by cases path <;> simp [TypePath.segments]
  writable := fun segment member => (path.isTypeSegment segment member).isWritable
  no_number := fun segment first =>
    (path.isTypeSegment segment (List.mem_of_mem_head? first)).identifier.no_number

/-- The text of a type is read as its tokens. -/
theorem TypeTree.tokens_text (type : TypeTree) :
    DeclGraph.Spelling.tokens type.text = type.tokens :=
  tokens_render type.enclosable.read

/-- The text of a type is written in canonical form. -/
theorem TypeTree.canonical_text (type : TypeTree) : canonical type.text = type.text := by
  rw [canonical, type.tokens_text, TypeTree.text]

/-- The reading finds the name of the path of a type. -/
theorem baseName?_named (front : List Qualifier) (path : TypePath) (back : List Derivation) :
    baseName? (TypeTree.named front path back).text =
      if builtinWords.contains path.name then none else some path.name := by
  have isTypePath := path.isTypePath
  obtain ⟨frontAround, frontNameless⟩ := qualifierTokens_around front
  obtain ⟨backAround, backNameless⟩ := derivationTokens_around back
  have names : path.segments.map (·.name) ≠ [] := by simpa using isTypePath.nonempty
  have stripped := withoutArguments_path isTypePath.writable frontAround backAround
    (enclosable_pathTokens path.isTypeSegment).no_operator
    -- No word runs on from the path: what is derived from it starts with a mark.
    (.inr (word_notMem_head?_derivationTokens back))
  have noNumber : path.name.toList.head?.any Char.isDigit = false := by
    obtain ⟨name, c, text, isFirst, first, starts, -⟩ :=
      exists_joined_eq_cons names isTypePath.simple
    rw [List.head?_map, Option.map_eq_some_iff] at isFirst
    obtain ⟨segment, isFirst, rfl⟩ := isFirst
    rw [TypePath.name, toList_intercalate, starts]
    simpa using isTypePath.no_number segment isFirst c first
  have rootless : (qualifierTokens front).filter Token.isOfName = rootTokens false := frontNameless
  rw [baseName?_of_names names isTypePath.simple frontAround rootless backAround backNameless
      ((TypeTree.canonical_text _).symm ▸ stripped),
    isBuiltin_intercalate isTypePath.simple names, ← TypePath.name, noNumber, Bool.false_or]

/-- What is written for the words of a type that refers to nothing is builtin or a number. -/
theorem PlainType.isBuiltin_words (type : PlainType) :
    ((render (type.words.map .word)).head?.any Char.isDigit ||
      isBuiltin (String.ofList (render (type.words.map .word)))) = true := by
  rcases type.refersToNothing with builtin | number
  · have ofName :
        (type.words.map Token.word).filter Token.isOfName = type.words.map Token.word := by
      rw [← type.filter_tokens, List.filter_filter]
      simp
    rw [isBuiltin, tokens_render type.isRead_words, ofName, Bool.or_eq_true, Bool.and_eq_true]
    refine .inr ⟨?_, List.all_eq_true.mpr (List.forall_mem_map.mpr fun word listed => ?_)⟩
    · cases type <;> simp [PlainType.words]
    · simpa [Token.isBuiltin] using builtin word listed
  · rw [number, Bool.true_or]

/-- A type without a path has no marks but those of numerals, separators and derivations. -/
theorem mark_notMem_plain {front : List Qualifier} {type : PlainType} {back : List Derivation}
    {symbol : Char} (other : symbol ∉ [':', '*', '&', '-', '\x27']) :
    .mark symbol ∉ (TypeTree.plain front type back).tokens := by
  intro member
  rcases List.mem_append.mp member with inFront | member
  · exact other (List.mem_append_left ['-', '\x27'] ((qualifierTokens_around front).1 _ inFront))
  rcases List.mem_append.mp member with inside | inBack
  · exact type.mark_notMem (fun own => other (List.mem_append_right [':', '*', '&'] own)) inside
  · exact other (List.mem_append_left ['-', '\x27'] ((derivationTokens_around back).1 _ inBack))

/-- A type without a path is written without brackets. -/
theorem plain_of_mem_plain {front : List Qualifier} {type : PlainType} {back : List Derivation} :
    ∀ c ∈ render (TypeTree.plain front type back).tokens, c ≠ '<' ∧ c ≠ '>' :=
  plain_of_unmarked (TypeTree.plain front type back).enclosable.read
    (mark_notMem_plain (by decide)) (mark_notMem_plain (by decide))

/-- No path is found where there is none. -/
theorem baseName?_plain (front : List Qualifier) (type : PlainType) (back : List Derivation) :
    baseName? (TypeTree.plain front type back).text = none := by
  have enclosable := (TypeTree.plain front type back).enclosable
  have stripped := withoutArguments_render enclosable.read enclosable.read enclosable.no_operator
    (outsideArguments_eq_self plain_of_mem_plain)
  have words : (TypeTree.plain front type back).tokens.filter Token.isOfName =
      type.words.map .word := by
    rw [TypeTree.tokens, List.filter_append, List.filter_append, (qualifierTokens_around front).2,
      (derivationTokens_around back).2, type.filter_tokens, List.nil_append, List.append_nil]
  obtain ⟨c, text, starts, ofWord⟩ := type.exists_first
  have name : (String.ofList (render (type.words.map .word))).toList =
      render (type.words.map .word) := String.toList_ofList
  have written : dropLeadingSeparators (render ((TypeTree.plain front type back).tokens.filter
      Token.isOfName)) = (String.ofList (render (type.words.map .word))).toList := by
    rw [words, name, starts, dropLeadingSeparators_cons ofWord]
  have nonempty : (String.ofList (render (type.words.map .word))).toList ≠ [] := by
    rw [name, starts]
    exact List.cons_ne_nil c text
  rw [baseName?_of_stripped ((TypeTree.canonical_text _).symm ▸ stripped) enclosable.read
    (mark_notMem_plain (by decide)) (mark_notMem_plain (by decide)) written nonempty, name,
    type.isBuiltin_words, if_pos rfl]

end BaseNames

/-- The reading finds the name of a type that has one. -/
theorem TypeTree.baseName?_text (type : TypeTree) : baseName? type.text = type.ownName? := by
  cases type with
  | named front path back => exact baseName?_named front path back
  | plain front type back => exact baseName?_plain front type back

section Arguments

/-- A type has tokens. -/
theorem TypeTree.tokens_ne_nil (type : TypeTree) : type.tokens ≠ [] := by
  cases type with
  | named front path back =>
    simp [TypeTree.tokens, pathTokens_ne_nil path.isTypePath.nonempty]
  | plain front type back => cases type <;> simp [TypeTree.tokens, PlainType.tokens]

/-- What was collected for a type is the type as it is spelled canonically. -/
theorem TypeTree.argumentOf_render (type : TypeTree) :
    argumentOf (render type.tokens) = [type.text] := by
  have nonempty : (render type.tokens).isEmpty = false := by
    rw [List.isEmpty_eq_false_iff]
    intro nothing
    have readBack := type.tokens_text
    rw [TypeTree.text, nothing] at readBack
    exact type.tokens_ne_nil readBack.symm
  rw [argumentOf, trim_render fun token member => (type.enclosable.read token member).legible,
    nonempty]
  rfl

/-- Up to the bracket that closes them, arguments are read one by one. -/
theorem TypeArguments.argumentsFrom_render (arguments : TypeArguments) (rest : List Char) :
    argumentsFrom 1 [] (render arguments.tokens ++ '>' :: rest) =
      arguments.types.map TypeTree.text ++ argumentsFrom 0 [] rest := by
  -- The first comma or bracket that counts is the one behind the first type, since the type
  -- closes its own brackets and has no comma outside of them.
  match arguments with
  | .last type =>
    rw [TypeArguments.tokens, type.enclosable.closed.argumentsFrom_append fun _ =>
        List.mem_singleton_self _, List.nil_append, argumentsFrom_closing, type.argumentOf_render]
    rfl
  | .more type others =>
    rw [TypeArguments.tokens, render_append_mark, render_mark_cons (by decide), List.append_assoc,
      type.enclosable.closed.argumentsFrom_append fun _ => List.mem_singleton_self _,
      List.nil_append, List.cons_append, argumentsFrom_comma, type.argumentOf_render,
      others.argumentsFrom_render]
    rfl

/-- The arguments read from a segment are the texts of its parts. -/
theorem TypeSegment.argumentsFrom_text (segment : TypeSegment) :
    argumentsFrom 0 [] segment.segment.text.toList = segment.parts.map TypeTree.text := by
  have plain := segment.isTypeSegment.isWritable.plain_name
  rw [PathSegment.text, String.toList_ofList, PathSegment.render_tokens,
    (Closed.of_plain plain fun _ _ => List.not_mem_nil).argumentsFrom_zero_append,
    argumentsFrom_of_plain plain, List.nil_append]
  cases segment with
  | bare name => rfl
  | applied name arguments =>
    show argumentsFrom 0 [] ('<' :: (render arguments.tokens ++ ['>'])) = _
    rw [argumentsFrom_opening, arguments.argumentsFrom_render]
    simp [argumentsFrom, TypeSegment.parts]

/-- The arguments read from a path are the texts of its parts. -/
theorem TypePath.argumentsFrom_joined (path : TypePath) :
    argumentsFrom 0 [] (joined (path.segments.map (·.text))) = path.parts.map TypeTree.text := by
  match path with
  | .last segment => exact segment.argumentsFrom_text
  | .inside segment rest =>
    obtain ⟨next, more, segments⟩ := List.exists_cons_of_ne_nil rest.isTypePath.nonempty
    have closed : Closed [] segment.segment.text.toList :=
      segment.isTypeSegment.isWritable.closed_text fun _ _ => List.not_mem_nil
    have behind := rest.argumentsFrom_joined
    rw [segments] at behind
    rw [TypePath.segments, segments, joined_map_cons_cons, closed.argumentsFrom_zero_append,
      argumentsFrom_append_plain plain_separator, segment.argumentsFrom_text, behind,
      TypePath.parts, List.map_append]

/-- The arguments that are read in a type are the types that are its parts. -/
theorem TypeTree.arguments_text (type : TypeTree) :
    arguments type.text = type.parts.map TypeTree.text := by
  rw [arguments, TypeTree.text, String.toList_ofList]
  cases type with
  | named front path back =>
    exact (argumentsFrom_render path.isTypePath.writable (qualifierTokens_around front).1
      (derivationTokens_around back).1).trans path.argumentsFrom_joined
  | plain front type back => exact argumentsFrom_of_plain plain_of_mem_plain

end Arguments

/-- The names of a type are found by as many levels as its argument lists are nested, and one. -/
theorem gatherNames_text {levels : Nat} {type : TypeTree} (shallow : type.depth < levels)
    (found : List String) : gatherNames levels found type.text = type.names.foldl addNew found := by
  -- The parts of a type are nested less deep, so one level less is enough for each of them.
  induction levels generalizing type found with
  | zero => exact absurd shallow (Nat.not_lt_zero _)
  | succ levels further =>
    have parts : ∀ (list : List TypeTree) (found : List String),
        (∀ part ∈ list, part ∈ type.parts) →
          (list.map TypeTree.text).foldl (gatherNames levels) found =
            (list.flatMap TypeTree.names).foldl addNew found := by
      intro list
      induction list with
      | nil => exact fun _ _ => rfl
      | cons part list behind =>
        intro found listed
        rw [List.forall_mem_cons] at listed
        have less := TypeTree.depth_lt_of_mem listed.1
        rw [List.map_cons, List.foldl_cons, List.flatMap_cons, List.foldl_append,
          further (by omega), behind _ listed.2]
    rw [gatherNames, type.baseName?_text, type.arguments_text, parts _ _ fun _ listed => listed,
      type.names_eq, List.foldl_append]
    cases type.ownName? <;> rfl

/-- Whatever blanks stand between its tokens, and whatever keywords of elaborated types, a type
whose argument lists are nested up to eight deep refers to the names in it, listed from the
outside in and from left to right, each at its first place. -/
theorem references_type (type : TypeTree) {spelling : String}
    (spelled : HasTokens spelling type.tokens) (shallow : type.depth ≤ 8) :
    references spelling = distinct type.names := by
  have canonicalText : canonical spelling = type.text := by
    rw [canonical, hasTokens_iff.mp spelled, TypeTree.text]
  have enough : type.depth < referenceLevels := Nat.lt_succ_of_le shallow
  rw [references, canonicalText, gatherNames_text enough, distinct]

/-- A path with arguments inside of it and at its end, with a builtin type among them. -/
def entryType : TypeTree :=
  .named [⟨"const", by decide⟩]
    (.inside
      (.applied ⟨"Map", by decide⟩
        (.more (.named [] (.last (.bare ⟨"Key", by decide⟩)) [])
          (.last (.plain [] (.builtin ⟨"unsigned", by decide⟩ [⟨"long", by decide⟩]) []))))
      (.last (.applied ⟨"Entry", by decide⟩
        (.last (.named [] (.last (.bare ⟨"Key", by decide⟩))
          [.qualifiedPointer ⟨"volatile", by decide⟩])))))
    [.reference]

/-- The path is named without its arguments, and the type that is an argument twice is listed
once. -/
theorem references_type_entry :
    HasTokens "const Map< Key,unsigned  long >::Entry<Key* volatile>&" entryType.tokens ∧
      entryType.depth ≤ 8 ∧
      references "const Map< Key,unsigned  long >::Entry<Key* volatile>&" =
        ["Map::Entry", "Key"] := by
  have spelled : HasTokens "const Map< Key,unsigned  long >::Entry<Key* volatile>&"
      entryType.tokens := hasTokens_iff.mpr (by decide +kernel)
  have shallow : entryType.depth ≤ 8 := by decide
  refine ⟨spelled, shallow, ?_⟩
  rw [references_type entryType spelled shallow]
  decide

end Spelling

end DeclGraph
