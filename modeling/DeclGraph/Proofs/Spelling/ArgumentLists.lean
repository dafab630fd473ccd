import DeclGraph.Proofs.Spelling.Reduced

/-!
# Template arguments in canonical spellings

The two readings of template arguments scan a spelling character by character and count angle
brackets only. Over a text that closes its angle brackets a scan comes back to the depth that it
started from, whatever else the text holds. So the argument lists of a path are left out one by
one, and what is left of the path are its words, unless a word stands right behind the last list:
no blank parts it from the list, and it runs on from the last word of the path.
-/

namespace DeclGraph

namespace Spelling

/-- Every angle bracket of a text is closed, and outside of them stand no barred marks. -/
inductive Closed : List Char → List Char → Prop where
  | nothing {barred : List Char} : Closed barred []
  | other {barred text : List Char} {c : Char} (noBracket : c ≠ '<' ∧ c ≠ '>') (free : c ∉ barred)
      (behind : Closed barred text) : Closed barred (c :: text)
  | nested {barred inner text : List Char} (inside : Closed [] inner)
      (behind : Closed barred text) : Closed barred ('<' :: (inner ++ '>' :: text))

section Marks

variable (pending rest : List Char)

/-- A list of arguments opens. -/
theorem argumentsFrom_opening : argumentsFrom 0 [] ('<' :: rest) = argumentsFrom 1 [] rest := by
  rw [argumentsFrom, if_pos rfl, if_pos rfl]

/-- A comma ends an argument of the list. -/
theorem argumentsFrom_comma : argumentsFrom 1 pending (',' :: rest) =
    argumentOf pending ++ argumentsFrom 1 [] rest := by
  rw [argumentsFrom, if_neg (by decide), if_neg (by decide), if_pos ⟨rfl, rfl⟩]

/-- The closing bracket ends the last argument and the list. -/
theorem argumentsFrom_closing : argumentsFrom 1 pending ('>' :: rest) =
    argumentOf pending ++ argumentsFrom 0 [] rest := by
  rw [argumentsFrom, if_neg (by decide), if_pos rfl, if_pos (Nat.le_refl 1)]

end Marks

namespace Closed

variable {barred first second text : List Char}

/-- Closed texts may stand one behind the other. -/
theorem append (firstClosed : Closed barred first) (secondClosed : Closed barred second) :
    Closed barred (first ++ second) := by
  induction firstClosed with
  | nothing => exact secondClosed
  | other noBracket free _ further => exact (further secondClosed).other noBracket free
  | nested inside _ _ further =>
    rw [List.cons_append, List.append_assoc, List.cons_append]
    exact inside.nested (further secondClosed)

/-- A closed text is closed without any marks barred. -/
theorem unbarred (closed : Closed barred text) : Closed [] text := by
  induction closed with
  | nothing => exact .nothing
  | other noBracket _ _ further => exact further.other noBracket (List.not_mem_nil)
  | nested inside _ _ further => exact inside.nested further

/-- A text without brackets and barred marks is closed. -/
theorem of_plain (plain : ∀ c ∈ text, c ≠ '<' ∧ c ≠ '>') (free : ∀ c ∈ text, c ∉ barred) :
    Closed barred text := by
  induction text with
  | nil => exact .nothing
  | cons c text further =>
    rw [List.forall_mem_cons] at plain free
    exact (further plain.2 free.2).other plain.1 free.1

/-- Inside of an argument list a closed text is left out as a whole. -/
theorem outsideArguments_append (closed : Closed barred text) (depth : Nat) (rest : List Char) :
    outsideArguments (depth + 1) (text ++ rest) = outsideArguments (depth + 1) rest := by
  induction closed generalizing depth rest with
  | nothing => rfl
  | other noBracket _ _ further =>
    rw [List.cons_append, outsideArguments, if_neg noBracket.1, if_neg noBracket.2,
      if_neg (Nat.succ_ne_zero _), further]
  | nested inside _ insideFurther further =>
    rw [List.cons_append, List.append_assoc, List.cons_append, outsideArguments, if_pos rfl,
      insideFurther, outsideArguments, if_neg (by decide), if_pos rfl, Nat.add_sub_cancel, further]

/-- An argument list is left out with its brackets. -/
theorem outsideArguments_list (closed : Closed barred text) (depth : Nat) (rest : List Char) :
    outsideArguments depth ('<' :: (text ++ '>' :: rest)) = outsideArguments depth rest := by
  rw [outsideArguments, if_pos rfl, closed.outsideArguments_append, outsideArguments,
    if_neg (by decide), if_pos rfl, Nat.add_sub_cancel]

/-- Inside of an argument a closed text is collected as a whole, if no comma of it can end the
argument. -/
theorem argumentsFrom_append {depth : Nat} (closed : Closed barred text)
    (commas : depth = 0 → ',' ∈ barred) (pending rest : List Char) :
    argumentsFrom (depth + 1) pending (text ++ rest) =
      argumentsFrom (depth + 1) (pending ++ text) rest := by
  induction closed generalizing depth pending rest with
  | nothing => simp
  | @other barred text c noBracket free _ further =>
    have noComma : ¬ (c = ',' ∧ depth + 1 = 1) := by
      rintro ⟨rfl, outermost⟩
      exact free (commas (by omega))
    rw [List.cons_append, argumentsFrom, if_neg noBracket.1, if_neg noBracket.2, if_neg noComma,
      if_neg (Nat.succ_ne_zero _), further commas, List.append_assoc, List.singleton_append]
  | @nested barred inner text _ _ insideFurther further =>
    rw [List.cons_append, List.append_assoc, List.cons_append, argumentsFrom, if_pos rfl,
      if_neg (Nat.succ_ne_zero _), insideFurther (by omega), argumentsFrom, if_neg (by decide),
      if_pos rfl, if_neg (by omega), Nat.add_sub_cancel, further commas]
    simp

/-- What an argument list says up to some place does not depend on what follows. -/
theorem exists_argumentsFrom_one (closed : Closed [] text) (pending : List Char) :
    ∃ found kept, ∀ rest,
      argumentsFrom 1 pending (text ++ rest) = found ++ argumentsFrom 1 kept rest := by
  generalize none : ([] : List Char) = barred at closed
  induction closed generalizing pending with
  | nothing => exact ⟨[], pending, fun _ => rfl⟩
  | @other barred text c noBracket _ _ further =>
    by_cases comma : c = ','
    · obtain ⟨found, kept, behind⟩ := further [] none
      refine ⟨argumentOf pending ++ found, kept, fun rest => ?_⟩
      rw [comma, List.cons_append, argumentsFrom_comma, behind, List.append_assoc]
    · obtain ⟨found, kept, behind⟩ := further (pending ++ [c]) none
      refine ⟨found, kept, fun rest => ?_⟩
      rw [List.cons_append, argumentsFrom, if_neg noBracket.1, if_neg noBracket.2,
        if_neg fun both => comma both.1, if_neg Nat.one_ne_zero, behind]
  | @nested barred inner text inside _ _ further =>
    obtain ⟨found, kept, behind⟩ := further (pending ++ '<' :: (inner ++ ['>'])) none
    refine ⟨found, kept, fun rest => ?_⟩
    rw [List.cons_append, List.append_assoc, List.cons_append, argumentsFrom, if_pos rfl,
      if_neg Nat.one_ne_zero, inside.argumentsFrom_append (by omega), argumentsFrom,
      if_neg (by decide), if_pos rfl, if_neg (by omega), ← behind]
    simp

/-- The arguments of a closed text come before those of what follows. -/
theorem argumentsFrom_zero_append (closed : Closed barred text) (rest : List Char) :
    argumentsFrom 0 [] (text ++ rest) = argumentsFrom 0 [] text ++ argumentsFrom 0 [] rest := by
  induction closed with
  | nothing => rfl
  | @other barred text c noBracket _ _ further =>
    have skipped : ∀ more, argumentsFrom 0 [] (c :: more) = argumentsFrom 0 [] more := by
      intro more
      rw [argumentsFrom, if_neg noBracket.1, if_neg noBracket.2, if_neg (by simp), if_pos rfl]
    rw [List.cons_append, skipped, skipped, further]
  | @nested barred inner text inside _ _ further =>
    obtain ⟨found, kept, behind⟩ := inside.exists_argumentsFrom_one []
    have listed : ∀ more, argumentsFrom 0 [] ('<' :: (inner ++ '>' :: more)) =
        found ++ (argumentOf kept ++ argumentsFrom 0 [] more) := by
      intro more
      rw [argumentsFrom_opening, behind, argumentsFrom_closing]
    rw [List.cons_append, List.append_assoc, List.cons_append, listed, listed, further]
    simp

end Closed

/-- A simple name is read as a word. -/
theorem IsSimple.isRead {word : String} (simple : IsSimple word) : (Token.word word).IsRead where
  legible := ⟨simple.nonempty, simple.word⟩
  no_keyword := by simpa [Token.isElaborated] using simple.no_keyword

/-- A character that is neither part of a word nor a blank is read as a mark. -/
theorem Token.IsRead.of_mark {symbol : Char} (isMark : isWordChar symbol = false)
    (inked : Text.isBlank symbol = false) : (Token.mark symbol).IsRead where
  legible := ⟨isMark, inked⟩
  no_keyword := rfl

/-- A segment of a path: a word and, behind some, template arguments with their tokens. -/
structure PathSegment where
  name : String
  arguments? : Option (List Token)

namespace PathSegment

/-- The tokens of a segment, its arguments in angle brackets. -/
def tokens (segment : PathSegment) : List Token :=
  match segment.arguments? with
  | none => [.word segment.name]
  | some list => .word segment.name :: .mark '<' :: (list ++ [.mark '>'])

/-- The canonical spelling of a segment. -/
def text (segment : PathSegment) : String := String.ofList (render segment.tokens)

/-- A segment that can be written and read: its name is a word, and its arguments close their
brackets. -/
structure IsWritable (segment : PathSegment) : Prop where
  simple : IsSimple segment.name
  read : ∀ list ∈ segment.arguments?, ∀ token ∈ list, token.IsRead
  closed : ∀ list ∈ segment.arguments?, Closed [] (render list)

variable {segment : PathSegment}

/-- A segment is written as its name with the arguments in brackets behind it. -/
theorem render_tokens (segment : PathSegment) : render segment.tokens = segment.name.toList ++
    match segment.arguments? with
    | none => []
    | some list => '<' :: (render list ++ ['>']) := by
  unfold tokens
  cases segment.arguments? with
  | none => simp [render, Token.chars]
  | some list =>
    dsimp only
    rw [← List.singleton_append, render_append_mark, render_mark_cons (by decide),
      render_append_mark]
    rfl

/-- The name of a segment that can be written has no brackets. -/
theorem IsWritable.plain_name (writable : segment.IsWritable) :
    ∀ c ∈ segment.name.toList, c ≠ '<' ∧ c ≠ '>' :=
  plain_of_names fun _ => writable.simple.isNameChar

/-- Of a segment its name is left. -/
theorem IsWritable.outsideArguments_text (writable : segment.IsWritable) (rest : List Char) :
    outsideArguments 0 (segment.text.toList ++ rest) =
      segment.name.toList ++ outsideArguments 0 rest := by
  have closed := writable.closed
  rw [text, String.toList_ofList, render_tokens, List.append_assoc,
    outsideArguments_append_plain writable.plain_name]
  cases listed : segment.arguments? with
  | none => rfl
  | some list =>
    dsimp only
    rw [List.cons_append, List.append_assoc, List.singleton_append,
      (closed list listed).outsideArguments_list]

/-- The text of a segment that can be written closes its brackets. -/
theorem IsWritable.closed_text (writable : segment.IsWritable) {barred : List Char}
    (free : ∀ c ∈ segment.name.toList, c ∉ barred) : Closed barred segment.text.toList := by
  have closed := writable.closed
  rw [text, String.toList_ofList, render_tokens]
  refine (Closed.of_plain writable.plain_name free).append ?_
  cases listed : segment.arguments? with
  | none => exact .nothing
  | some list => exact (closed list listed).nested .nothing

/-- The tokens of a segment that can be written can be read back. -/
theorem IsWritable.isRead (writable : segment.IsWritable) :
    ∀ token ∈ segment.tokens, token.IsRead := by
  have read := writable.read
  unfold tokens
  cases listed : segment.arguments? with
  | none => simpa using writable.simple.isRead
  | some list =>
    simp only [List.forall_mem_cons, List.forall_mem_append]
    exact ⟨writable.simple.isRead, .of_mark (by decide) (by decide), read list listed,
      .of_mark (by decide) (by decide), by simp⟩

end PathSegment

/-- The tokens of a path, with separators between its segments. -/
def pathTokens : List PathSegment → List Token
  | [] => []
  | [segment] => segment.tokens
  | segment :: next :: rest =>
    segment.tokens ++ .mark ':' :: .mark ':' :: pathTokens (next :: rest)

/-- A path of words and template argument lists that can name a type. -/
structure IsTypePath (path : List PathSegment) : Prop where
  nonempty : path ≠ []
  writable : ∀ segment ∈ path, segment.IsWritable
  no_number : ∀ segment ∈ path.head?, ∀ c ∈ segment.name.toList.head?, c.isDigit = false

/-- The names along the path of a type are simple. -/
theorem IsTypePath.simple {path : List PathSegment} (isTypePath : IsTypePath path) :
    ∀ name ∈ path.map (·.name), IsSimple name :=
  List.forall_mem_map.mpr fun segment member => (isTypePath.writable segment member).simple

section Paths

variable {path : List PathSegment}

/-- A path of several segments is written as the first, a separator and the rest. -/
theorem joined_map_cons_cons {α : Type} (spelled : α → String) (segment next : α)
    (rest : List α) : joined ((segment :: next :: rest).map spelled) =
      (spelled segment).toList ++ ([':', ':'] ++ joined ((next :: rest).map spelled)) := rfl

/-- The tokens of a path are written as its segments joined. -/
theorem render_pathTokens (path : List PathSegment) :
    render (pathTokens path) = joined (path.map (·.text)) := by
  induction path using pathTokens.induct with
  | case1 => rfl
  | case2 segment => simp [pathTokens, joined, PathSegment.text]
  | case3 segment next rest further =>
    rw [pathTokens, render_append_mark, render_mark_cons (by decide), render_mark_cons (by decide),
      further, joined_map_cons_cons, PathSegment.text, String.toList_ofList]
    rfl

/-- A separator has no brackets. -/
theorem plain_separator : ∀ c ∈ [':', ':'], c ≠ '<' ∧ c ≠ '>' := by simp

/-- Of a path its names are left. -/
theorem outsideArguments_path (writable : ∀ segment ∈ path, segment.IsWritable)
    (rest : List Char) : outsideArguments 0 (joined (path.map (·.text)) ++ rest) =
      joined (path.map (·.name)) ++ outsideArguments 0 rest := by
  induction path using pathTokens.induct with
  | case1 => rfl
  | case2 segment => exact (writable segment List.mem_cons_self).outsideArguments_text rest
  | case3 segment next rest further =>
    rw [List.forall_mem_cons] at writable
    rw [joined_map_cons_cons, joined_map_cons_cons, List.append_assoc,
      writable.1.outsideArguments_text, List.append_assoc,
      outsideArguments_append_plain plain_separator, further writable.2]
    simp

/-- A path whose segments can be written closes its brackets. -/
theorem closed_path (writable : ∀ segment ∈ path, segment.IsWritable) {barred : List Char}
    (free : ∀ c ∈ barred, isNameChar c = false) : Closed barred (joined (path.map (·.text))) := by
  have ofNames : ∀ {c : Char}, isNameChar c → c ∉ barred := by
    intro c ofName isBarred
    rw [free c isBarred] at ofName
    cases ofName
  induction path using pathTokens.induct with
  | case1 => exact .nothing
  | case2 segment =>
    have own := writable segment List.mem_cons_self
    exact own.closed_text fun c member => ofNames (own.simple.isNameChar member)
  | case3 segment next rest further =>
    rw [List.forall_mem_cons] at writable
    rw [joined_map_cons_cons]
    refine (writable.1.closed_text fun c member =>
      ofNames (writable.1.simple.isNameChar member)).append ?_
    refine (Closed.of_plain plain_separator fun c colon => ofNames ?_).append (further writable.2)
    rcases List.mem_cons.mp colon with rfl | colon
    · rfl
    · rw [List.mem_singleton.mp colon]
      rfl

/-- A path with segments has tokens. -/
theorem pathTokens_ne_nil (nonempty : path ≠ []) : pathTokens path ≠ [] := by
  match path, nonempty with
  | [⟨_, none⟩], _ => exact List.cons_ne_nil _ _
  | [⟨_, some _⟩], _ => exact List.cons_ne_nil _ _
  | segment :: next :: rest, _ => simp [pathTokens]

/-- The last token of a path is that of its last segment. -/
theorem getLast?_pathTokens (path : List PathSegment) :
    (pathTokens path).getLast? = path.getLast?.bind fun segment => segment.tokens.getLast? := by
  induction path using pathTokens.induct with
  | case1 => rfl
  | case2 segment => rfl
  | case3 segment next rest further =>
    have behind : pathTokens (next :: rest) ≠ [] := pathTokens_ne_nil (List.cons_ne_nil next rest)
    rw [pathTokens, List.getLast?_append_of_ne_nil _ (List.cons_ne_nil _ _),
      List.getLast?_cons_cons, List.getLast?_cons_of_ne_nil behind, further,
      List.getLast?_cons_cons]

/-- The first token of a path is the first of its names. -/
theorem head?_pathTokens (path : List PathSegment) :
    (pathTokens path).head? = (nameTokens (path.map (·.name))).head? := by
  match path with
  | [] => rfl
  | [⟨_, none⟩] => rfl
  | [⟨_, some _⟩] => rfl
  | ⟨_, none⟩ :: _ :: _ => rfl
  | ⟨_, some _⟩ :: _ :: _ => rfl

/-- The last token of names is the last name. -/
theorem getLast?_nameTokens (segments : List String) :
    (nameTokens segments).getLast? = segments.getLast?.map .word := by
  induction segments using nameTokens.induct with
  | case1 => rfl
  | case2 segment => rfl
  | case3 segment next rest further =>
    have behind : nameTokens (next :: rest) ≠ [] := by
      cases rest <;> simp [nameTokens]
    rw [nameTokens, List.getLast?_cons_cons, List.getLast?_cons_cons,
      List.getLast?_cons_of_ne_nil behind, further, List.getLast?_cons_cons]

/-- The tokens of a path whose segments can be written can be read back. -/
theorem isRead_pathTokens (writable : ∀ segment ∈ path, segment.IsWritable) :
    ∀ token ∈ pathTokens path, token.IsRead := by
  induction path using pathTokens.induct with
  | case1 => simp [pathTokens]
  | case2 segment => exact (writable segment List.mem_cons_self).isRead
  | case3 segment next rest further =>
    rw [List.forall_mem_cons] at writable
    have colon : (Token.mark ':').IsRead := .of_mark (by decide) (by decide)
    simp only [pathTokens, List.forall_mem_append, List.forall_mem_cons]
    exact ⟨writable.1.isRead, colon, colon, further writable.2⟩

/-- The tokens of simple names can be read back. -/
theorem isRead_nameTokens {segments : List String}
    (simple : ∀ segment ∈ segments, IsSimple segment) :
    ∀ token ∈ nameTokens segments, token.IsRead := by
  intro token member
  rcases mem_nameTokens member with rfl | ⟨segment, listed, rfl⟩
  · exact .of_mark (by decide) (by decide)
  · exact (simple segment listed).isRead

/-- The last segment of a path has no template arguments. -/
def EndsBare (path : List PathSegment) : Prop :=
  ∀ segment ∈ path.getLast?, segment.arguments? = none

/-- A path that ends bare ends with the token that its names end with. -/
theorem EndsBare.getLast?_eq (bare : EndsBare path) :
    (pathTokens path).getLast? = (nameTokens (path.map (·.name))).getLast? := by
  rw [getLast?_pathTokens, getLast?_nameTokens, List.getLast?_map]
  cases last : path.getLast? with
  | none => rfl
  | some segment =>
    have noArguments := bare segment last
    simp [PathSegment.tokens, noArguments]

/-- Behind a path the same blank stands as behind its names, unless its last segment has
arguments and a word follows. -/
theorem gap_path {back : List Token} (parted : EndsBare path ∨ ∀ word, .word word ∉ back.head?) :
    gap (pathTokens path) back = gap (nameTokens (path.map (·.name))) back := by
  rcases parted with bare | noWord
  · exact gap_congr bare.getLast?_eq rfl
  · match back with
    | [] => simp
    | .mark symbol :: rest => simp
    | .word text :: rest => exact absurd rfl (noWord text)

end Paths

section Stripping

variable {path : List PathSegment} {front back list : List Token} {spelling name : String}

/-- A token that can stand in front of a path or behind it: a qualifier, half of a separator, or
the mark of a pointer or a reference. -/
def Token.StandsAround : Token → Prop
  | .word text => text ∈ qualifierWords
  | .mark symbol => symbol ∈ [':', '*', '&']

/-- A qualifier is read as a word. -/
theorem isRead_qualifier {qualifier : String} (isQualifier : qualifier ∈ qualifierWords) :
    (Token.word qualifier).IsRead := by
  have qualifiers : ∀ word ∈ qualifierWords,
      word.toList ≠ [] ∧ word.toList.all isWordChar ∧
        (Token.word word).isElaborated = false := by decide
  obtain ⟨nonempty, ofWord, noKeyword⟩ := qualifiers qualifier isQualifier
  exact ⟨⟨nonempty, List.all_eq_true.mp ofWord⟩, noKeyword⟩

/-- The marks around a path are colons, stars and ampersands. -/
theorem Token.standsAround_mark_iff {symbol : Char} :
    (Token.mark symbol).StandsAround ↔ symbol = ':' ∨ symbol = '*' ∨ symbol = '&' := by
  simp [Token.StandsAround]

/-- What stands around a path can be read back. -/
theorem Token.StandsAround.isRead {token : Token} (around : token.StandsAround) :
    token.IsRead := by
  cases token with
  | word text => exact isRead_qualifier around
  | mark symbol =>
    rcases Token.standsAround_mark_iff.mp around with rfl | rfl | rfl
    all_goals exact .of_mark (by decide) (by decide)

/-- Where no token is an angle bracket, none is written. -/
theorem plain_of_unmarked (read : ∀ token ∈ list, token.IsRead) (noOpening : .mark '<' ∉ list)
    (noClosing : .mark '>' ∉ list) : ∀ c ∈ render list, c ≠ '<' ∧ c ≠ '>' := by
  have legible : ∀ token ∈ list, token.IsLegible := fun token member => (read token member).legible
  refine fun c member => ⟨?_, ?_⟩
  · rintro rfl
    exact noOpening ((mark_mem_render_iff legible (by decide) (by decide)).mp member)
  · rintro rfl
    exact noClosing ((mark_mem_render_iff legible (by decide) (by decide)).mp member)

/-- What stands around a path has no brackets. -/
theorem plain_of_mem_around (around : ∀ token ∈ list, token.StandsAround) :
    ∀ c ∈ render list, c ≠ '<' ∧ c ≠ '>' := by
  have unmarked : ∀ {symbol : Char}, symbol ∉ [':', '*', '&'] → .mark symbol ∉ list :=
    fun other member => other (around _ member)
  exact plain_of_unmarked (fun token member => (around token member).isRead)
    (unmarked (by decide)) (unmarked (by decide))

/-- The gap between two lists of tokens has no brackets. -/
theorem plain_of_mem_gap {first second : List Token} :
    ∀ c ∈ gap first second, c ≠ '<' ∧ c ≠ '>' := by
  intro c member
  rw [eq_blank_of_mem_gap member]
  decide

/-- Without its template arguments a path is written as its names are. -/
theorem outsideArguments_render (writable : ∀ segment ∈ path, segment.IsWritable)
    (frontAround : ∀ token ∈ front, token.StandsAround)
    (backAround : ∀ token ∈ back, token.StandsAround)
    (parted : EndsBare path ∨ ∀ word, .word word ∉ back.head?) :
    outsideArguments 0 (render (front ++ (pathTokens path ++ back))) =
      render (front ++ (nameTokens (path.map (·.name)) ++ back)) := by
  have sameStart : gap front (pathTokens path ++ back) =
      gap front (nameTokens (path.map (·.name)) ++ back) := by
    refine gap_congr rfl ?_
    rw [List.head?_append, List.head?_append, head?_pathTokens]
  rw [render_append, render_append, render_append front, render_append (nameTokens _),
    outsideArguments_append_plain (plain_of_mem_around frontAround),
    outsideArguments_append_plain plain_of_mem_gap, render_pathTokens,
    outsideArguments_path writable, outsideArguments_append_plain plain_of_mem_gap,
    outsideArguments_eq_self (plain_of_mem_around backAround), sameStart, gap_path parted,
    render_nameTokens]

/-- Some word of the tokens has the keyword of operators in it. -/
def SpeaksOfOperator (list : List Token) : Prop :=
  ∃ word, .word word ∈ list ∧ "operator".toList <:+: word.toList

/-- No tokens at all do not speak of operators. -/
theorem not_speaksOfOperator_nil : ¬ SpeaksOfOperator [] := by
  simp [SpeaksOfOperator]

/-- A mark does not speak of operators. -/
theorem speaksOfOperator_mark_cons {symbol : Char} :
    SpeaksOfOperator (.mark symbol :: list) ↔ SpeaksOfOperator list := by
  simp [SpeaksOfOperator]

/-- A word in front speaks of operators when the keyword is in it. -/
theorem speaksOfOperator_word_cons {word : String} : SpeaksOfOperator (.word word :: list) ↔
    "operator".toList <:+: word.toList ∨ SpeaksOfOperator list := by
  simp [SpeaksOfOperator, or_and_right, exists_or]

/-- Two lists of tokens speak of operators when one of them does. -/
theorem speaksOfOperator_append {first second : List Token} :
    SpeaksOfOperator (first ++ second) ↔ SpeaksOfOperator first ∨ SpeaksOfOperator second := by
  simp only [SpeaksOfOperator, List.mem_append, or_and_right, exists_or]

/-- What stands around a path does not speak of operators. -/
theorem not_speaksOfOperator_around (around : ∀ token ∈ list, token.StandsAround) :
    ¬ SpeaksOfOperator list := by
  rintro ⟨word, member, occurs⟩
  have absent : ∀ word ∈ qualifierWords,
      Text.occursIn "operator".toList word.toList = false := by decide
  rw [← Text.occursIn_iff, absent word (around _ member)] at occurs
  cases occurs

/-- What stands around a path does not speak of operators. -/
theorem speaksOfOperator_around_iff (frontAround : ∀ token ∈ front, token.StandsAround)
    (backAround : ∀ token ∈ back, token.StandsAround) :
    SpeaksOfOperator (front ++ (list ++ back)) ↔ SpeaksOfOperator list := by
  rw [speaksOfOperator_append, speaksOfOperator_append,
    or_iff_right (not_speaksOfOperator_around frontAround),
    or_iff_left (not_speaksOfOperator_around backAround)]

/-- The keyword occurs in what is written exactly when the tokens speak of operators. -/
theorem occursIn_operator_iff (read : ∀ token ∈ list, token.IsRead) :
    Text.occursIn "operator".toList (render list) = true ↔ SpeaksOfOperator list := by
  have letters : ∀ c ∈ "operator".toList, isWordChar c := List.all_eq_true.mp (by decide)
  rw [Text.occursIn_iff]
  exact (spells_render fun token member => (read token member).legible).infix_iff
    (by decide) letters

/-- A spelling that speaks of operators keeps its arguments. -/
theorem withoutArguments_of_operator (read : ∀ token ∈ list, token.IsRead)
    (ofOperator : SpeaksOfOperator list) :
    withoutArguments (String.ofList (render list)) = String.ofList (render list) := by
  have text : (String.ofList (render list)).toList = render list := String.toList_ofList
  rw [withoutArguments, text, if_pos ((occursIn_operator_iff read).mpr ofOperator),
    trim_render fun token member => (read token member).legible]

/-- Any other spelling is left with what stands outside of its arguments. -/
theorem withoutArguments_render {plain : List Token} (read : ∀ token ∈ list, token.IsRead)
    (plainRead : ∀ token ∈ plain, token.IsRead) (noOperator : ¬ SpeaksOfOperator list)
    (stripped : outsideArguments 0 (render list) = render plain) :
    withoutArguments (String.ofList (render list)) = String.ofList (render plain) := by
  have text : (String.ofList (render list)).toList = render list := String.toList_ofList
  rw [withoutArguments, text, if_neg fun occurs =>
    noOperator ((occursIn_operator_iff read).mp occurs), stripped,
    trim_render fun token member => (plainRead token member).legible]

/-- A path can be read back along with what stands around it. -/
theorem isRead_around (frontAround : ∀ token ∈ front, token.StandsAround)
    (backAround : ∀ token ∈ back, token.StandsAround) (read : ∀ token ∈ list, token.IsRead) :
    ∀ token ∈ front ++ (list ++ back), token.IsRead := by
  simp only [List.forall_mem_append]
  exact ⟨fun token member => (frontAround token member).isRead, read,
    fun token member => (backAround token member).isRead⟩

/-- Without its template arguments a path that does not speak of operators is spelled as its names
are. -/
theorem withoutArguments_path (writable : ∀ segment ∈ path, segment.IsWritable)
    (frontAround : ∀ token ∈ front, token.StandsAround)
    (backAround : ∀ token ∈ back, token.StandsAround)
    (noOperator : ¬ SpeaksOfOperator (pathTokens path))
    (parted : EndsBare path ∨ ∀ word, .word word ∉ back.head?) :
    withoutArguments (String.ofList (render (front ++ (pathTokens path ++ back)))) =
      String.ofList (render (front ++ (nameTokens (path.map (·.name)) ++ back))) := by
  have simple : ∀ name ∈ path.map (·.name), IsSimple name :=
    List.forall_mem_map.mpr fun segment member => (writable segment member).simple
  exact withoutArguments_render
    (isRead_around frontAround backAround (isRead_pathTokens writable))
    (isRead_around frontAround backAround (isRead_nameTokens simple))
    (fun speaks => noOperator ((speaksOfOperator_around_iff frontAround backAround).mp speaks))
    (outsideArguments_render writable frontAround backAround parted)

/-- The name of a type that is told by tokens without template arguments, unless it is a number or
builtin. -/
theorem baseName?_of_stripped
    (stripped : withoutArguments (canonical spelling) = String.ofList (render list))
    (read : ∀ token ∈ list, token.IsRead) (noFunction : .mark '(' ∉ list)
    (noArray : .mark '[' ∉ list)
    (written : dropLeadingSeparators (render (list.filter Token.isOfName)) = name.toList)
    (nonempty : name.toList ≠ []) : baseName? spelling =
      if (name.toList.head?.any Char.isDigit || isBuiltin name) = true then none
      else some name := by
  have noDigit : name.toList.head?.any Char.isDigit = false ↔
      ∀ c ∈ name.toList.head?, c.isDigit = false := by
    cases name.toList.head? <;> simp
  have named : ∀ other, baseName? spelling = some other ↔
      other = name ∧ (name.toList.head?.any Char.isDigit || isBuiltin name) = false := by
    intro other
    rw [baseName?_eq_some_iff, stripped, namesType_render_iff read noFunction noArray, written,
      String.toList_inj, Bool.or_eq_false_iff, noDigit]
    constructor
    · rintro ⟨rfl, -, noNumber, noBuiltin⟩
      exact ⟨rfl, noNumber, noBuiltin⟩
    · rintro ⟨rfl, noNumber, noBuiltin⟩
      exact ⟨rfl, nonempty, noNumber, noBuiltin⟩
  split
  · rename_i refused
    rw [Option.eq_none_iff_forall_ne_some]
    intro other found
    rw [((named other).mp found).2] at refused
    cases refused
  · rename_i taken
    exact (named name).mpr ⟨rfl, by simpa using taken⟩

/-- The separator in front of a path that starts at the global namespace. -/
def rootTokens (rooted : Bool) : List Token := if rooted then [.mark ':', .mark ':'] else []

/-- The separator of a rooted name may stand around a path. -/
theorem rootTokens_around (rooted : Bool) : ∀ token ∈ rootTokens rooted, token.StandsAround := by
  cases rooted <;> simp [rootTokens, Token.StandsAround]

/-- The separator of a rooted name is part of the name. -/
theorem filter_rootTokens (rooted : Bool) :
    (rootTokens rooted).filter Token.isOfName = rootTokens rooted := by
  cases rooted <;> rfl

/-- A rooted name loses its leading separator and nothing else. -/
theorem dropLeadingSeparators_rooted {segments : List String} (rooted : Bool)
    (simple : ∀ segment ∈ segments, IsSimple segment) :
    dropLeadingSeparators (render (rootTokens rooted ++ nameTokens segments)) =
      joined segments := by
  cases rooted with
  | false => exact render_nameTokens ▸ dropLeadingSeparators_joined simple
  | true =>
    show dropLeadingSeparators (render (.mark ':' :: .mark ':' :: nameTokens segments)) = _
    rw [render_separator, dropLeadingSeparators, dropLeadingSeparators_joined simple]

/-- The type that a path names whose template arguments are left out. -/
theorem baseName?_of_names {segments : List String} {rooted : Bool} (nonempty : segments ≠ [])
    (simple : ∀ segment ∈ segments, IsSimple segment)
    (frontAround : ∀ token ∈ front, token.StandsAround)
    (frontRoot : front.filter Token.isOfName = rootTokens rooted)
    (backAround : ∀ token ∈ back, token.StandsAround)
    (backNameless : back.filter Token.isOfName = [])
    (stripped : withoutArguments (canonical spelling) =
      String.ofList (render (front ++ (nameTokens segments ++ back)))) :
    baseName? spelling =
      if (("::".intercalate segments).toList.head?.any Char.isDigit ||
        isBuiltin ("::".intercalate segments)) = true then none
      else some ("::".intercalate segments) := by
  have unmarked : ∀ {symbol : Char}, symbol ∉ [':', '*', '&'] →
      .mark symbol ∉ front ++ (nameTokens segments ++ back) := by
    intro symbol other member
    rcases List.mem_append.mp member with inFront | member
    · exact other (frontAround _ inFront)
    rcases List.mem_append.mp member with ofName | inBack
    · rcases mem_nameTokens ofName with same | ⟨_, _, same⟩
      · exact other (by simp [Token.mark.inj same])
      · cases same
    · exact other (backAround _ inBack)
  have names : (front ++ (nameTokens segments ++ back)).filter Token.isOfName =
      rootTokens rooted ++ nameTokens segments := by
    rw [List.filter_append, List.filter_append, frontRoot, filter_nameTokens simple, backNameless,
      List.append_nil]
  obtain ⟨_, c, text, _, _, starts, _⟩ := exists_joined_eq_cons nonempty simple
  exact baseName?_of_stripped stripped
    (isRead_around frontAround backAround (isRead_nameTokens simple))
    (unmarked (by decide)) (unmarked (by decide))
    (by rw [names, dropLeadingSeparators_rooted rooted simple, toList_intercalate])
    (by rw [toList_intercalate, starts]; exact List.cons_ne_nil c text)

/-- Outside of argument lists nothing is collected. -/
theorem argumentsFrom_append_plain {text : List Char} (plain : ∀ c ∈ text, c ≠ '<' ∧ c ≠ '>')
    (rest : List Char) : argumentsFrom 0 [] (text ++ rest) = argumentsFrom 0 [] rest := by
  have closed : Closed [] text := .of_plain plain fun _ _ => List.not_mem_nil
  rw [closed.argumentsFrom_zero_append, argumentsFrom_of_plain plain, List.nil_append]

/-- The arguments of a spelling are those of its path. -/
theorem argumentsFrom_render (writable : ∀ segment ∈ path, segment.IsWritable)
    (frontAround : ∀ token ∈ front, token.StandsAround)
    (backAround : ∀ token ∈ back, token.StandsAround) :
    argumentsFrom 0 [] (render (front ++ (pathTokens path ++ back))) =
      argumentsFrom 0 [] (joined (path.map (·.text))) := by
  have closed : Closed [] (joined (path.map (·.text))) := closed_path writable (by simp)
  rw [render_append, render_append, argumentsFrom_append_plain (plain_of_mem_around frontAround),
    argumentsFrom_append_plain plain_of_mem_gap, render_pathTokens,
    closed.argumentsFrom_zero_append, argumentsFrom_append_plain plain_of_mem_gap,
    argumentsFrom_of_plain (plain_of_mem_around backAround),
    List.append_nil]

end Stripping

end Spelling

end DeclGraph
