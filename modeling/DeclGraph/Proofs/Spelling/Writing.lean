import DeclGraph.Proofs.Spelling.Qualifiers
import Mathlib.Logic.Relation

/-!
# Tokens that are read as they are written

The tokens of a text are its longest words and its single marks, with blanks anywhere between
them. Tokens that some text has are read back from what `render` writes for them, so canonical
spellings are told apart exactly by their tokens, and blanks count only where they part one word
or join two.
-/

namespace DeclGraph

namespace Text

variable {needle first second : List Char} {c : Char}

/-- A text occurs in another when it is an infix of it. -/
theorem occursIn_iff {text : List Char} : occursIn needle text = true ↔ needle <:+: text := by
  induction text with
  | nil => simp [occursIn]
  | cons c rest further =>
    rw [occursIn, Bool.or_eq_true, further, List.isPrefixOf_iff_prefix, List.infix_cons_iff]

/-- A character in front that does not occur in a text adds no place for it. -/
theorem infix_cons_iff_of_notMem (nonempty : needle ≠ []) (absent : c ∉ needle) :
    needle <:+: c :: second ↔ needle <:+: second := by
  rw [List.infix_cons_iff, List.prefix_cons_iff]
  refine or_iff_right ?_
  rintro (nothing | ⟨rest, rfl, -⟩)
  · exact nonempty nothing
  · exact absent List.mem_cons_self

/-- What is searched for does not stretch over a character that it does not hold. -/
theorem infix_append_cons_iff (nonempty : needle ≠ []) (absent : c ∉ needle) :
    needle <:+: first ++ c :: second ↔ needle <:+: first ∨ needle <:+: second := by
  rw [List.infix_append_iff, infix_cons_iff_of_notMem nonempty absent]
  constructor
  · rintro (inFirst | inSecond | ⟨front, back, rfl, isSuffix, isPrefix⟩)
    · exact .inl inFirst
    · exact .inr inSecond
    · rcases List.prefix_cons_iff.mp isPrefix with rfl | ⟨rest, rfl, -⟩
      · exact .inl (by simpa using isSuffix.isInfix)
      · exact absurd (by simp) absent
  · exact Or.imp_right .inl

end Text

namespace Spelling

/-- A token that a text can have: a word of word characters, or a mark that is neither one of
them nor a blank. -/
def Token.IsLegible : Token → Prop
  | .word text => text.toList ≠ [] ∧ ∀ c ∈ text.toList, isWordChar c
  | .mark symbol => isWordChar symbol = false ∧ Text.isBlank symbol = false

/-- A text is made of tokens one after the other, each word as long as can be, with blanks in
front of them, between them and behind them. -/
inductive Spells : List Char → List Token → Prop where
  | nothing : Spells [] []
  | blank {c : Char} {text : List Char} {list : List Token} (isBlank : Text.isBlank c)
      (behind : Spells text list) : Spells (c :: text) list
  | mark {symbol : Char} {text : List Char} {list : List Token}
      (legible : (Token.mark symbol).IsLegible) (behind : Spells text list) :
      Spells (symbol :: text) (.mark symbol :: list)
  | word {word : String} {text : List Char} {list : List Token}
      (legible : (Token.word word).IsLegible) (longest : ∀ c ∈ text.head?, isWordChar c = false)
      (behind : Spells text list) : Spells (word.toList ++ text) (.word word :: list)

/-- A spelling is made of these tokens, with keywords of elaborated types anywhere between them. -/
def HasTokens (spelling : String) (list : List Token) : Prop :=
  ∃ all, Spells spelling.toList all ∧ list = all.filter fun token => !token.isElaborated

section Scanning

/-- No blank is a character of a word. -/
theorem isWordChar_of_isBlank {c : Char} (blank : Text.isBlank c) : isWordChar c = false := by
  rw [Bool.eq_false_iff]
  intro word
  have inked := isBlank_of_isNameChar (c := c) (by simp [isNameChar, word])
  rw [blank] at inked
  cases inked

/-- A word ends where no word character follows. -/
theorem scanFrom_longest {pending text : List Char}
    (longest : ∀ c ∈ text.head?, isWordChar c = false) :
    scanFrom pending text = pendingWord pending ++ scanFrom [] text := by
  cases text with
  | nil => simp [scanFrom, pendingWord]
  | cons c text =>
    have noWord := longest c rfl
    simp [scanFrom, noWord, pendingWord]

/-- A legible word that is pending ends as that word. -/
theorem Token.IsLegible.pendingWord_eq {word : String} (legible : (Token.word word).IsLegible) :
    pendingWord word.toList = [.word word] := by
  rw [pendingWord, if_neg (by simpa using legible.1), String.ofList_toList]

/-- The tokens that a text is made of are those that are read from it. -/
theorem Spells.scanFrom_eq {text : List Char} {list : List Token} (spells : Spells text list) :
    scanFrom [] text = list := by
  induction spells with
  | nothing => rfl
  | blank isBlank _ further =>
    simp [scanFrom, isWordChar_of_isBlank isBlank, isBlank, pendingWord, further]
  | mark legible _ further => simp [scanFrom, legible.1, legible.2, pendingWord, further]
  | word legible longest _ further =>
    rw [scanFrom_word legible.2, List.nil_append, scanFrom_longest longest,
      legible.pendingWord_eq, further, List.singleton_append]

/-- The open word is part of the text that is spelled. -/
theorem spells_scanFrom {pending : List Char} (ofWord : ∀ c ∈ pending, isWordChar c)
    (text : List Char) : Spells (pending ++ text) (scanFrom pending text) := by
  have word : ∀ {pending text : List Char} {list : List Token},
      (∀ c ∈ pending, isWordChar c) → (∀ c ∈ text.head?, isWordChar c = false) →
        Spells text list → Spells (pending ++ text) (pendingWord pending ++ list) := by
    intro pending text list ofWord longest behind
    by_cases nothing : pending = []
    · simpa [nothing, pendingWord] using behind
    · have legible : (Token.word (String.ofList pending)).IsLegible :=
        ⟨by simpa using nothing, by simpa using ofWord⟩
      simpa [pendingWord, nothing] using behind.word legible longest
  induction text generalizing pending with
  | nil =>
    have alone : Spells (pending ++ []) (pendingWord pending ++ []) :=
      word ofWord (by simp) .nothing
    rwa [List.append_nil (pendingWord pending)] at alone
  | cons c text further =>
    unfold scanFrom
    split
    · rename_i isWord
      have longer : ∀ other ∈ pending ++ [c], isWordChar other :=
        List.forall_mem_append.mpr ⟨ofWord, List.forall_mem_singleton.mpr isWord⟩
      have behind := further longer
      rwa [List.append_assoc, List.singleton_append] at behind
    · rename_i noWord
      rw [List.append_assoc]
      refine word ofWord (by simpa using noWord) ?_
      have behind : Spells text (scanFrom [] text) := further (List.forall_mem_nil _)
      by_cases blank : Text.isBlank c = true
      · simpa [blank] using behind.blank blank
      · simp only [blank, Bool.false_eq_true, if_false, List.singleton_append]
        exact behind.mark ⟨by simpa using noWord, by simpa using blank⟩

/-- Scanning finds the tokens that a text is made of, and these are the only ones. -/
theorem spells_iff {text : List Char} {list : List Token} :
    Spells text list ↔ scanFrom [] text = list := by
  constructor
  · exact Spells.scanFrom_eq
  · rintro rfl
    exact spells_scanFrom (List.forall_mem_nil _) text

/-- A spelling has the tokens that are read from it and no others. -/
theorem hasTokens_iff {spelling : String} {list : List Token} :
    HasTokens spelling list ↔ tokens spelling = list := by
  constructor
  · rintro ⟨all, spells, rfl⟩
    rw [tokens, spells_iff.mp spells]
  · rintro rfl
    exact ⟨_, spells_iff.mpr rfl, rfl⟩

/-- The tokens that a text is made of are legible. -/
theorem Spells.legible {text : List Char} {list : List Token} (spells : Spells text list) :
    ∀ token ∈ list, token.IsLegible := by
  induction spells with
  | nothing => simp
  | blank _ _ further => exact further
  | mark legible _ further => exact List.forall_mem_cons.mpr ⟨legible, further⟩
  | word legible _ _ further => exact List.forall_mem_cons.mpr ⟨legible, further⟩

/-- Two texts make one with the tokens of both, unless a word would run on. -/
theorem Spells.append {first second : List Char} {firstList secondList : List Token}
    (firstSpells : Spells first firstList) (secondSpells : Spells second secondList)
    (parted : ∀ c ∈ first.getLast?, isWordChar c → ∀ next ∈ second.head?, isWordChar next = false) :
    Spells (first ++ second) (firstList ++ secondList) := by
  have behindFirst : ∀ {c : Char} {text : List Char},
      (∀ last ∈ (c :: text).getLast?, isWordChar last →
        ∀ next ∈ second.head?, isWordChar next = false) →
      ∀ last ∈ text.getLast?, isWordChar last →
        ∀ next ∈ second.head?, isWordChar next = false := by
    intro c text parted last isLast
    exact parted last (List.mem_getLast?_cons isLast)
  induction firstSpells with
  | nothing => exact secondSpells
  | blank isBlank _ further => exact (further (behindFirst parted)).blank isBlank
  | mark legible _ further => exact (further (behindFirst parted)).mark legible
  | @word word text list legible longest _ further =>
    rw [List.append_assoc]
    cases text with
    | nil =>
      obtain ⟨last, isLast⟩ : ∃ last, last ∈ word.toList.getLast? :=
        Option.isSome_iff_exists.mp (by simpa using legible.1)
      have ofWord := legible.2 last (List.mem_of_mem_getLast? isLast)
      refine (further (by simp)).word legible (parted last ?_ ofWord)
      rwa [List.append_nil]
    | cons c text =>
      refine (further fun last isLast => parted last ?_).word legible longest
      rwa [List.getLast?_append_of_ne_nil _ (List.cons_ne_nil c text)]

/-- The tokens of two spellings that stand side by side. -/
theorem tokens_append {first second : String}
    (parted : ∀ c ∈ first.toList.getLast?, isWordChar c →
      ∀ next ∈ second.toList.head?, isWordChar next = false) :
    tokens (first ++ second) = tokens first ++ tokens second := by
  have spelled := (spells_iff.mpr rfl).append (spells_iff.mpr rfl) parted
  rw [tokens, String.toList_append, spelled.scanFrom_eq, List.filter_append]
  rfl

/-- A run of word characters occurs in a text where it occurs in a word. -/
theorem Spells.infix_iff {text needle : List Char} {list : List Token} (spells : Spells text list)
    (nonempty : needle ≠ []) (ofWord : ∀ c ∈ needle, isWordChar c) :
    needle <:+: text ↔ ∃ word, .word word ∈ list ∧ needle <:+: word.toList := by
  have absent : ∀ {c : Char}, isWordChar c = false → c ∉ needle := by
    intro c noWord member
    rw [ofWord c member] at noWord
    cases noWord
  induction spells with
  | nothing => simpa using nonempty
  | blank isBlank _ further =>
    exact (Text.infix_cons_iff_of_notMem nonempty (absent (isWordChar_of_isBlank isBlank))).trans
      further
  | mark legible _ further =>
    exact (Text.infix_cons_iff_of_notMem nonempty (absent legible.1)).trans (by simpa using further)
  | @word word text list legible longest _ further =>
    have apart : needle <:+: word.toList ++ text ↔ needle <:+: word.toList ∨ needle <:+: text := by
      cases text with
      | nil => simpa using fun nothing => absurd nothing nonempty
      | cons c text =>
        have noWord := absent (longest c rfl)
        rw [Text.infix_append_cons_iff nonempty noWord,
          Text.infix_cons_iff_of_notMem nonempty noWord]
    exact apart.trans (by simp [further])

end Scanning

section Rendering

/-- A token that is read somewhere: it is legible and no keyword of elaborated types. -/
structure Token.IsRead (token : Token) : Prop where
  legible : token.IsLegible
  no_keyword : token.isElaborated = false

variable {spelling : String} {list : List Token} {token : Token}

/-- The tokens of a spelling are read from it. -/
theorem isRead_of_mem_tokens (member : token ∈ tokens spelling) : token.IsRead := by
  obtain ⟨scanned, kept⟩ := List.mem_filter.mp member
  exact ⟨(spells_iff.mpr rfl).legible token scanned, by simpa using kept⟩

/-- What is written of a list of tokens begins with the first. -/
theorem exists_render_cons (token : Token) (rest : List Token) :
    ∃ more, render (token :: rest) = token.chars ++ more := by
  cases rest with
  | nil => exact ⟨[], by simp [render]⟩
  | cons next rest => exact ⟨_, by rw [render, List.append_assoc]⟩

/-- No blank is written in front of a mark by the token before it. -/
@[simp] theorem Token.spaced_mark (token : Token) (symbol : Char) :
    token.spaced (.mark symbol) = false := by
  cases token <;> rfl

/-- Behind other marks than those of pointers and references no blank is written. -/
theorem render_mark_cons {symbol : Char} (noAddress : symbol ∉ ['*', '&']) (rest : List Token) :
    render (.mark symbol :: rest) = symbol :: render rest := by
  simp only [List.mem_cons, List.not_mem_nil, or_false, not_or] at noAddress
  cases rest with
  | nil => rfl
  | cons next rest => cases next <;> simp [render, Token.chars, Token.spaced, noAddress]

/-- The blank that is written between two lists of tokens, or nothing. -/
def gap (first second : List Token) : List Char :=
  match first.getLast?, second.head? with
  | some last, some next => if last.spaced next then [' '] else []
  | _, _ => []

/-- The gap depends on the two tokens next to it alone. -/
theorem gap_congr {first second other another : List Token} (last : first.getLast? = other.getLast?)
    (next : second.head? = another.head?) : gap first second = gap other another := by
  unfold gap
  rw [last, next]

/-- There is no gap in front of a mark. -/
@[simp] theorem gap_mark (first : List Token) (symbol : Char) (rest : List Token) :
    gap first (.mark symbol :: rest) = [] := by
  cases last : first.getLast? <;> simp [gap, last]

/-- There is no gap at the end. -/
@[simp] theorem gap_nil (first : List Token) : gap first [] = [] := by
  cases last : first.getLast? <;> simp [gap, last]

/-- A gap is a blank. -/
theorem eq_blank_of_mem_gap {first second : List Token} {c : Char} (member : c ∈ gap first second) :
    c = ' ' := by
  unfold gap at member
  split at member
  · split at member
    · exact List.mem_singleton.mp member
    · cases member
  · cases member

/-- Two lists of tokens are written one after the other with their gap between them. -/
theorem render_append (first second : List Token) :
    render (first ++ second) = render first ++ (gap first second ++ render second) := by
  induction first using render.induct with
  | case1 => rfl
  | case2 token =>
    cases second with
    | nil => simp [render, gap]
    | cons next rest => simp [render, gap]
  | case3 token next rest further =>
    have between : gap (token :: next :: rest) second = gap (next :: rest) second :=
      gap_congr List.getLast?_cons_cons rfl
    rw [List.cons_append, List.cons_append, render, ← List.cons_append, further, between, render]
    simp

/-- In front of a mark no blank is written. -/
theorem render_append_mark (list : List Token) (symbol : Char) (rest : List Token) :
    render (list ++ .mark symbol :: rest) = render list ++ render (.mark symbol :: rest) := by
  rw [render_append, gap_mark, List.nil_append]

/-- What is written of a list with a mark in front begins with that mark. -/
theorem head?_render_mark (symbol : Char) (rest : List Token) :
    (render (.mark symbol :: rest)).head? = some symbol := by
  obtain ⟨more, written⟩ := exists_render_cons (.mark symbol) rest
  rw [written]
  rfl

/-- What is written for legible tokens is made of these tokens. -/
theorem spells_render (legible : ∀ token ∈ list, token.IsLegible) : Spells (render list) list := by
  have apart : ∀ {first next : Token} {text : List Char} {rest : List Token}, first.IsLegible →
      (∀ c ∈ text.head?, first.spaced next = false → ∀ word, first = .word word →
        isWordChar c = false) → Spells text rest →
      Spells (first.chars ++ (if first.spaced next then [' '] else []) ++ text)
        (first :: rest) := by
    intro first next text rest firstLegible parted behind
    have blank : Text.isBlank ' ' = true := by decide
    rw [List.append_assoc]
    cases spaced : first.spaced next with
    | true =>
      have behindBlank := behind.blank blank
      cases first with
      | mark symbol => exact behindBlank.mark firstLegible
      | word word =>
        exact behindBlank.word firstLegible (by simpa using isWordChar_of_isBlank blank)
    | false =>
      cases first with
      | mark symbol => exact behind.mark firstLegible
      | word word =>
        exact behind.word firstLegible fun c first => parted c first spaced word rfl
  induction list using render.induct with
  | case1 => exact .nothing
  | case2 token =>
    have legible := legible token List.mem_cons_self
    rw [render, ← List.append_nil token.chars]
    cases token with
    | mark symbol => exact Spells.nothing.mark legible
    | word word => exact Spells.nothing.word legible (by simp)
  | case3 token next rest further =>
    rw [List.forall_mem_cons] at legible
    rw [render]
    refine apart legible.1 (fun c first unspaced word isWord => ?_) (further legible.2)
    -- Only a mark stands next to a word, and marks are no word characters.
    subst isWord
    cases next with
    | word other => cases unspaced
    | mark symbol =>
      rw [head?_render_mark] at first
      cases first
      exact (legible.2 _ List.mem_cons_self).1

/-- Tokens are read back from what is written for them. -/
theorem tokens_render (read : ∀ token ∈ list, token.IsRead) :
    tokens (String.ofList (render list)) = list := by
  have spelled := (spells_render fun token member => (read token member).legible).scanFrom_eq
  rw [tokens, String.toList_ofList, spelled, List.filter_eq_self]
  exact fun token member => by simp [(read token member).no_keyword]

/-- What is written for tokens are their characters and spaces. -/
theorem mem_render_iff {c : Char} (inked : c ≠ ' ') :
    c ∈ render list ↔ ∃ token ∈ list, c ∈ token.chars := by
  induction list using render.induct with
  | case1 => simp [render]
  | case2 token => simp [render]
  | case3 token next rest further =>
    have noBlank : c ∉ if token.spaced next then [' '] else [] := by
      split <;> simp [inked]
    simp only [render, List.mem_append, noBlank, or_false, further]
    exact (List.exists_mem_cons_iff (c ∈ Token.chars ·) token (next :: rest)).symm

/-- A mark is written where it is a token. -/
theorem mark_mem_render_iff {symbol : Char} (legible : ∀ token ∈ list, token.IsLegible)
    (isMark : isWordChar symbol = false) (inked : symbol ≠ ' ') :
    symbol ∈ render list ↔ .mark symbol ∈ list := by
  rw [mem_render_iff inked]
  constructor
  · rintro ⟨token, member, inside⟩
    cases token with
    | mark other =>
      rw [List.mem_singleton.mp inside]
      exact member
    | word text =>
      have ofWord := (legible _ member).2 symbol inside
      rw [isMark] at ofWord
      cases ofWord
  · intro member
    exact ⟨.mark symbol, member, List.mem_singleton.mpr rfl⟩

/-- A legible token has characters. -/
theorem Token.IsLegible.exists_cons (legible : token.IsLegible) :
    ∃ c text, token.chars = c :: text := by
  cases token with
  | mark symbol => exact ⟨symbol, [], rfl⟩
  | word text => exact List.exists_cons_of_ne_nil legible.1

/-- No character of a legible token is a blank. -/
theorem Token.IsLegible.inked (legible : token.IsLegible) {c : Char} (member : c ∈ token.chars) :
    Text.isBlank c = false := by
  cases token with
  | mark symbol =>
    rw [List.mem_singleton.mp member]
    exact legible.2
  | word text => exact isBlank_of_isNameChar (by simp [isNameChar, legible.2 c member])

/-- The first character that is written is one of the first token. -/
theorem head?_render {c : Char} (legible : ∀ token ∈ list, token.IsLegible)
    (first : c ∈ (render list).head?) : ∃ token ∈ list.head?, c ∈ token.chars := by
  cases list with
  | nil => cases first
  | cons token rest =>
    refine ⟨token, rfl, ?_⟩
    obtain ⟨more, written⟩ := exists_render_cons token rest
    obtain ⟨start, text, chars⟩ := (legible token List.mem_cons_self).exists_cons
    rw [written, chars] at first
    cases first
    simp [chars]

/-- The last character that is written is one of some token. -/
theorem getLast?_render {c : Char} (legible : ∀ token ∈ list, token.IsLegible)
    (last : c ∈ (render list).getLast?) : ∃ token ∈ list, c ∈ token.chars := by
  induction list using render.induct with
  | case1 => cases last
  | case2 token => exact ⟨token, List.mem_cons_self, List.mem_of_mem_getLast? last⟩
  | case3 token next rest further =>
    rw [List.forall_mem_cons] at legible
    obtain ⟨more, written⟩ := exists_render_cons next rest
    obtain ⟨start, text, chars⟩ := (legible.2 next List.mem_cons_self).exists_cons
    rw [render, List.getLast?_append_of_ne_nil _ (by simp [written, chars])] at last
    obtain ⟨other, listed, inside⟩ := further legible.2 last
    exact ⟨other, List.mem_cons_of_mem _ listed, inside⟩

/-- What is written for tokens has no blanks at its ends. -/
theorem trim_render (legible : ∀ token ∈ list, token.IsLegible) :
    Text.trim (render list) = render list := by
  refine Text.trim_eq_self (fun c first => ?_) fun c last => ?_
  · obtain ⟨token, isFirst, inside⟩ := head?_render legible first
    exact (legible token (List.mem_of_mem_head? isFirst)).inked inside
  · obtain ⟨token, member, inside⟩ := getLast?_render legible last
    exact (legible token member).inked inside

end Rendering

section Canonical

variable {one other spelling : String} {list : List Token} {depth : Nat}

/-- A canonical spelling has the tokens of the spelling. -/
theorem tokens_canonical (spelling : String) : tokens (canonical spelling) = tokens spelling :=
  tokens_render fun _ => isRead_of_mem_tokens

/-- Canonical spellings are told apart by their tokens. -/
theorem canonical_eq_iff : canonical one = canonical other ↔ tokens one = tokens other := by
  constructor
  · intro same
    rw [← tokens_canonical one, same, tokens_canonical]
  · intro same
    rw [canonical, canonical, same]

/-- The canonical form of a parameter depends on its tokens alone. -/
theorem canonicalParameter_congr (same : tokens one = tokens other) :
    canonicalParameter one = canonicalParameter other := by
  unfold canonicalParameter
  rw [same]

/-- Dropping qualifiers leaves some of the tokens, in their order. -/
theorem dropOuterQualifiers_sublist (depth : Nat) (list : List Token) :
    (dropOuterQualifiers depth list).Sublist list := by
  induction list generalizing depth with
  | nil => exact .slnil
  | cons token rest further =>
    cases token with
    | mark symbol => exact (further _).cons_cons _
    | word text =>
      rw [dropOuterQualifiers]
      split
      · exact (further _).cons _
      · exact (further _).cons_cons _

/-- Where qualifiers were dropped, none is left outside. -/
theorem not_qualifiedOutside_dropOuterQualifiers (depth : Nat) (list : List Token) :
    ¬ QualifiedOutside depth (dropOuterQualifiers depth list) := by
  induction list generalizing depth with
  | nil => exact not_qualifiedOutside_nil depth
  | cons token rest further =>
    cases token with
    | mark symbol =>
      rw [dropOuterQualifiers, qualifiedOutside_mark]
      exact further _
    | word text =>
      rw [dropOuterQualifiers]
      split
      · exact further _
      · rename_i stays
        rw [qualifiedOutside_word, not_or]
        exact ⟨by simpa using stays, further _⟩

/-- A second reading of the form of a parameter finds no qualifier to drop. -/
theorem canonicalParameter_idempotent (spelling : String) :
    canonicalParameter (canonicalParameter spelling) = canonicalParameter spelling := by
  cases byAddress : isByAddress (tokens spelling) with
  | true =>
    have form : canonicalParameter spelling = canonical spelling := by
      simp [canonicalParameter, byAddress, canonical]
    rw [form, canonicalParameter_congr (tokens_canonical spelling), form]
  | false =>
    have form : canonicalParameter spelling =
        String.ofList (render (dropOuterQualifiers 0 (tokens spelling))) := by
      simp [canonicalParameter, byAddress]
    have readBack : tokens (canonicalParameter spelling) =
        dropOuterQualifiers 0 (tokens spelling) := by
      rw [form]
      exact tokens_render fun token member =>
        isRead_of_mem_tokens ((dropOuterQualifiers_sublist _ _).subset member)
    have settled := dropOuterQualifiers_of_none
      (not_qualifiedOutside_dropOuterQualifiers 0 (tokens spelling))
    rw [canonicalParameter, readBack, settled, ite_self, form]

end Canonical

section Blanks

variable {one other : String}

/-- The other spelling has a blank more than the one, and not inside of a word. -/
def HasBlankMore (one other : String) : Prop :=
  ∃ front rest c, one.toList = front ++ rest ∧ other.toList = front ++ c :: rest ∧
    Text.isBlank c ∧
    ∀ last ∈ front.getLast?, isWordChar last → ∀ next ∈ rest.head?, isWordChar next = false

/-- One spelling becomes the other by adding blanks that part no word and by leaving out blanks
that keep no words apart. -/
def Respaced (one other : String) : Prop := Relation.EqvGen HasBlankMore one other

/-- One blank more leaves the tokens as they are. -/
theorem HasBlankMore.tokens_eq (more : HasBlankMore one other) : tokens one = tokens other := by
  obtain ⟨front, rest, c, oneText, otherText, blank, parted⟩ := more
  have frontSpells : Spells front (scanFrom [] front) := spells_iff.mpr rfl
  have restSpells : Spells rest (scanFrom [] rest) := spells_iff.mpr rfl
  have without := (frontSpells.append restSpells parted).scanFrom_eq
  have withBlank := (frontSpells.append (restSpells.blank blank) (by
    rintro _ _ _ next isNext
    cases isNext
    exact isWordChar_of_isBlank blank)).scanFrom_eq
  rw [tokens, tokens, oneText, otherText, without, withBlank]

/-- Other blanks leave the tokens as they are. -/
theorem Respaced.tokens_eq (respaced : Respaced one other) : tokens one = tokens other := by
  induction respaced with
  | rel _ _ more => exact more.tokens_eq
  | refl _ => rfl
  | symm _ _ _ same => exact same.symm
  | trans _ _ _ _ _ first second => exact first.trans second

/-- Two declarations of one entity whose parameter types are spelled alike, up to blanks between
tokens. -/
structure Respells (one other : Declaration) (plain written : List String) : Prop extends
    one.AlikeUpToTypes other (plain.map canonicalParameter) (written.map canonicalParameter) where
  parameters : List.Forall₂ Respaced plain written

/-- A declaration that is only spelled otherwise has the same key. -/
theorem Respells.key_eq {one other : Declaration} {plain written : List String}
    (respells : Respells one other plain written) : one.key = other.key := by
  have types : plain.map canonicalParameter = written.map canonicalParameter := by
    have parameters := respells.parameters
    clear respells
    induction parameters with
    | nil => rfl
    | cons first _ further =>
      rw [List.map_cons, List.map_cons, canonicalParameter_congr first.tokens_eq, further]
  exact (types ▸ respells.toAlikeUpToTypes).key_eq

end Blanks

/-- Canonical spellings are normal forms. Writing one again changes nothing, the form of a
parameter is that of its canonical spelling and stays as it is too, and two spellings have one
canonical form exactly if they are made of the same tokens. Blanks that part no word and keep no
words apart change neither form and no key. -/
theorem canonical_isNormalForm (one other : String) :
    canonical (canonical one) = canonical one ∧
      canonicalParameter (canonical one) = canonicalParameter one ∧
      canonicalParameter (canonicalParameter one) = canonicalParameter one ∧
      (canonical one = canonical other ↔ ∃ list, HasTokens one list ∧ HasTokens other list) ∧
      (Respaced one other →
        canonical one = canonical other ∧ canonicalParameter one = canonicalParameter other) ∧
      ∀ {first second : Declaration} {plain written : List String},
        Respells first second plain written → first.key = second.key := by
  refine ⟨canonical_eq_iff.mpr (tokens_canonical one),
    canonicalParameter_congr (tokens_canonical one), canonicalParameter_idempotent one, ?_,
    fun respaced => ?_, fun respells => respells.key_eq⟩
  · rw [canonical_eq_iff]
    simp only [hasTokens_iff]
    exact ⟨fun same => ⟨_, rfl, same.symm⟩,
      fun ⟨list, oneHas, otherHas⟩ => oneHas.trans otherHas.symm⟩
  · exact ⟨canonical_eq_iff.mpr respaced.tokens_eq, canonicalParameter_congr respaced.tokens_eq⟩

/-- A blank in front of a pointer mark makes no other function. -/
theorem canonical_isNormalForm_pointer :
    Respaced "Node*" "Node *" ∧
      canonical "Node*" = canonical "Node *" ∧
      Respells (takingDeclaration "Node*") (takingDeclaration "Node *") ["Node*"] ["Node *"] ∧
      (takingDeclaration "Node*").key = (takingDeclaration "Node *").key := by
  obtain ⟨-, -, -, -, respacing, keys⟩ := canonical_isNormalForm "Node*" "Node *"
  have respaced : Respaced "Node*" "Node *" :=
    .rel _ _ ⟨"Node".toList, ['*'], ' ', by decide, by decide, by decide, by
      rintro _ - - _ ⟨⟩
      decide⟩
  have respells : Respells (takingDeclaration "Node*") (takingDeclaration "Node *")
      ["Node*"] ["Node *"] :=
    { family := rfl
      name := rfl
      signatures := ⟨_, _, rfl, rfl, rfl, rfl, rfl, rfl⟩
      parameters := .cons respaced .nil }
  exact ⟨respaced, (respacing respaced).1, respells, keys respells⟩

end Spelling

end DeclGraph
