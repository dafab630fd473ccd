import DeclGraph.Text.Scanning
import Mathlib.Data.List.Infix

/-!
# Balanced brackets

In a balanced text every bracket is closed, each kind counted for itself, and none before it
is opened. A scan that counts angle brackets and parentheses together is back where it
started behind such a text, and what stands only inside brackets cannot mark the end of it.
-/

namespace DeclGraph.Text

/-- The kinds of brackets: the mark that opens and the mark that closes. -/
def bracketKinds : List (Char × Char) := [('(', ')'), ('<', '>'), ('[', ']'), ('{', '}')]

/-- Every bracket is closed, and never are more closed than opened. -/
structure Balanced (text : List Char) : Prop where
  opened_first : ∀ kind ∈ bracketKinds, ∀ front, front <+: text →
    front.count kind.2 ≤ front.count kind.1
  all_closed : ∀ kind ∈ bracketKinds, text.count kind.1 = text.count kind.2

/-- Some bracket is open behind the text. -/
def LeavesOpen (text : List Char) : Prop :=
  ∃ kind ∈ bracketKinds, text.count kind.2 < text.count kind.1

/-- A character stands in the text only where some bracket is open. -/
def OnlyInside (c : Char) (text : List Char) : Prop :=
  ∀ front, front ++ [c] <+: text → LeavesOpen front

section Deciding

variable {text : List Char}

/-- Whether brackets are balanced is settled by the finitely many beginnings of a text. -/
theorem balanced_iff : Balanced text ↔
    (∀ kind ∈ bracketKinds, ∀ front ∈ text.inits, front.count kind.2 ≤ front.count kind.1) ∧
      ∀ kind ∈ bracketKinds, text.count kind.1 = text.count kind.2 := by
  simp only [List.mem_inits]
  exact ⟨fun balanced => ⟨balanced.opened_first, balanced.all_closed⟩, fun both => ⟨both.1, both.2⟩⟩

instance : Decidable (Balanced text) := decidable_of_iff' _ balanced_iff

instance : Decidable (LeavesOpen text) :=
  inferInstanceAs (Decidable (∃ kind ∈ bracketKinds, text.count kind.2 < text.count kind.1))

/-- Whether a character stands only inside brackets is settled by the beginnings of a text. -/
theorem onlyInside_iff {c : Char} :
    OnlyInside c text ↔ ∀ front ∈ text.inits, front ++ [c] <+: text → LeavesOpen front := by
  constructor
  · exact fun inside front _ => inside front
  · intro inside front isPrefix
    exact inside front ((List.mem_inits _ _).mpr ((List.prefix_append _ _).trans isPrefix)) isPrefix

instance {c : Char} : Decidable (OnlyInside c text) := decidable_of_iff' _ onlyInside_iff

end Deciding

/-- Nothing is open behind a balanced text. -/
theorem Balanced.not_leavesOpen {text : List Char} (balanced : Balanced text) :
    ¬ LeavesOpen text := by
  rintro ⟨kind, isKind, more⟩
  have closed := balanced.all_closed kind isKind
  omega

/-- The common count of angle brackets and parentheses, as long as none is closed before it is
opened. -/
theorem nestingAfter_add_closed {text : List Char}
    (opened : ∀ kind ∈ bracketKinds, ∀ front, front <+: text →
      front.count kind.2 ≤ front.count kind.1) :
    nestingAfter 0 text + (text.count ')' + text.count '>') =
      text.count '(' + text.count '<' := by
  induction text using List.reverseRecOn with
  | nil => rfl
  | append_singleton front c further =>
    have before := further fun kind isKind inner isPrefix =>
      opened kind isKind inner (isPrefix.trans (List.prefix_append _ _))
    have parentheses := opened ('(', ')') (by simp [bracketKinds]) _ (List.prefix_refl _)
    have angles := opened ('<', '>') (by simp [bracketKinds]) _ (List.prefix_refl _)
    rw [nestingAfter_append, nestingAfter_cons, nestingAfter_nil]
    simp only [List.count_append, List.count_singleton, beq_iff_eq] at parentheses angles ⊢
    unfold nestingStep
    by_cases isOpening : c = '<' ∨ c = '('
    · rcases isOpening with rfl | rfl <;> simp <;> omega
    · obtain ⟨notAngle, notParenthesis⟩ := not_or.mp isOpening
      by_cases isClosing : c = '>' ∨ c = ')'
      · rcases isClosing with rfl | rfl <;> simp at parentheses angles ⊢ <;> omega
      · obtain ⟨notClosingAngle, notClosing⟩ := not_or.mp isClosing
        simp only [notAngle, notParenthesis, notClosingAngle, notClosing, or_self, if_false]
        omega

/-- A balanced text leads a scan back to no nesting. -/
theorem Balanced.nestingAfter_eq_zero {text : List Char} (balanced : Balanced text) :
    nestingAfter 0 text = 0 := by
  have counted := nestingAfter_add_closed balanced.opened_first
  have parentheses := balanced.all_closed ('(', ')') (by simp [bracketKinds])
  have angles := balanced.all_closed ('<', '>') (by simp [bracketKinds])
  simp only at parentheses angles
  omega

/-- Two balanced texts that have a mark only inside brackets are one text if they agree up to the
mark behind each. -/
theorem Balanced.eq_of_append_mark {mark : Char} {first second rest other : List Char}
    (firstBalanced : Balanced first) (secondBalanced : Balanced second)
    (firstInside : OnlyInside mark first) (secondInside : OnlyInside mark second)
    (same : first ++ mark :: rest = second ++ mark :: other) : first = second ∧ rest = other := by
  -- If one is longer, the mark behind the other stands in it outside brackets.
  rcases List.append_eq_append_iff.mp same with ⟨more, rfl, behind⟩ | ⟨more, rfl, behind⟩
  · cases more with
    | nil => simpa using behind
    | cons c more =>
      obtain rfl := (List.cons.inj behind).1
      exact absurd (secondInside first ⟨more, by simp⟩) firstBalanced.not_leavesOpen
  · cases more with
    | nil => simpa using behind.symm
    | cons c more =>
      obtain rfl := (List.cons.inj behind).1
      exact absurd (firstInside second ⟨more, by simp⟩) secondBalanced.not_leavesOpen

/-- A text that can be told from its neighbours in a list with a mark between the items. -/
structure Delimited (mark : Char) (text : List Char) : Prop where
  nonempty : text ≠ []
  balanced : Balanced text
  inside : OnlyInside mark text

/-- Where something is listed, a mark behind the list closes every item alike. -/
theorem intercalate_append_mark {mark : Char} {texts : List (List Char)} (listed : texts ≠ []) :
    [mark].intercalate texts ++ [mark] = texts.flatMap (· ++ [mark]) := by
  induction texts with
  | nil => exact absurd rfl listed
  | cons text rest further =>
    cases rest with
    | nil => simp
    | cons next rest =>
      rw [List.intercalate_cons_cons, List.append_assoc, further (List.cons_ne_nil next rest)]
      rfl

/-- Texts that are not empty join to the empty text only if there are none. -/
theorem intercalate_eq_nil_iff {mark : Char} {texts : List (List Char)}
    (nonempty : ∀ text ∈ texts, text ≠ []) : [mark].intercalate texts = [] ↔ texts = [] := by
  cases texts with
  | nil => simp
  | cons text rest =>
    cases rest with
    | nil => simpa using nonempty text List.mem_cons_self
    | cons next rest => simp [List.intercalate_cons_cons]

/-- Texts with a mark behind each of them can be read back. -/
theorem eq_of_flatMap_mark {mark : Char} {first second : List (List Char)}
    (firstDelimited : ∀ text ∈ first, Delimited mark text)
    (secondDelimited : ∀ text ∈ second, Delimited mark text)
    (same : first.flatMap (· ++ [mark]) = second.flatMap (· ++ [mark])) : first = second := by
  induction first generalizing second with
  | nil =>
    cases second with
    | nil => rfl
    | cons other others => simp at same
  | cons text rest further =>
    cases second with
    | nil => simp at same
    | cons other others =>
      rw [List.forall_mem_cons] at firstDelimited secondDelimited
      simp only [List.flatMap_cons, List.append_assoc, List.singleton_append] at same
      obtain ⟨rfl, behind⟩ := firstDelimited.1.balanced.eq_of_append_mark
        secondDelimited.1.balanced firstDelimited.1.inside secondDelimited.1.inside same
      rw [further firstDelimited.2 secondDelimited.2 behind]

/-- A list of delimited texts can be read back from its written form. -/
theorem eq_of_intercalate {mark : Char} {first second : List (List Char)}
    (firstDelimited : ∀ text ∈ first, Delimited mark text)
    (secondDelimited : ∀ text ∈ second, Delimited mark text)
    (same : [mark].intercalate first = [mark].intercalate second) : first = second := by
  have firstEmpty : [mark].intercalate first = [] ↔ first = [] :=
    intercalate_eq_nil_iff fun text member => (firstDelimited text member).nonempty
  have secondEmpty : [mark].intercalate second = [] ↔ second = [] :=
    intercalate_eq_nil_iff fun text member => (secondDelimited text member).nonempty
  by_cases nothing : first = []
  · rw [nothing, secondEmpty.mp (same ▸ firstEmpty.mpr nothing)]
  · have something : second ≠ [] := by
      rwa [Ne, ← secondEmpty, ← same, firstEmpty]
    apply eq_of_flatMap_mark firstDelimited secondDelimited
    rw [← intercalate_append_mark nothing, ← intercalate_append_mark something, same]

end DeclGraph.Text
