import DeclGraph.Text.Range

/-!
# Scanning texts

Spellings are cut at blanks and names are trimmed of them, where blank means the Unicode
property White_Space. Texts are cut at a character and paths at a byte. Scanners of names
and spellings count how many brackets are open, and a closing bracket without an opening
one leaves the count at zero.
-/

namespace DeclGraph.Text

/-- The ranges of the property White_Space. -/
def blankRanges : List Range :=
  [(0x9, 0xD), (0x20, 0x20), (0x85, 0x85), (0xA0, 0xA0), (0x1680, 0x1680),
   (0x2000, 0x200A), (0x2028, 0x2029), (0x202F, 0x202F), (0x205F, 0x205F), (0x3000, 0x3000)]

/-- Whether a character is white space. -/
def isBlank (c : Char) : Bool :=
  covers blankRanges c.toNat

/-- Drops the blanks at both ends. -/
def trim (text : List Char) : List Char :=
  ((text.dropWhile isBlank).reverse.dropWhile isBlank).reverse

/-- A text without blanks at its ends is left alone by `trim`. -/
theorem trim_eq_self {text : List Char}
    (first : ∀ c ∈ text.head?, isBlank c = false)
    (last : ∀ c ∈ text.getLast?, isBlank c = false) : trim text = text := by
  have keep : ∀ list : List Char, (∀ c ∈ list.head?, isBlank c = false) →
      list.dropWhile isBlank = list := by
    intro list edge
    cases list with
    | nil => rfl
    | cons c rest => simp [edge c (by simp)]
  unfold trim
  rw [keep text first, keep text.reverse (by simpa using last), List.reverse_reverse]

section Cutting

variable {α : Type} [DecidableEq α]

/-- Cuts a text at every `mark`. There is always at least one piece. -/
def cutAt (mark : α) : List α → List (List α)
  | [] => [[]]
  | c :: rest =>
    if c = mark then [] :: cutAt mark rest
    else
      match cutAt mark rest with
      | piece :: pieces => (c :: piece) :: pieces
      | [] => [[c]]

/-- Cutting yields at least one piece. -/
theorem cutAt_ne_nil (mark : α) (text : List α) : cutAt mark text ≠ [] := by
  cases text with
  | nil => simp [cutAt]
  | cons c rest =>
    unfold cutAt
    split
    · simp
    · split <;> simp

end Cutting

/-- Whether `needle` occurs somewhere in a text as a run of neighbours. -/
def occursIn (needle : List Char) : List Char → Bool
  | [] => needle.isEmpty
  | c :: rest => needle.isPrefixOf (c :: rest) || occursIn needle rest

/-- The nesting after one more character, counting angle brackets and
parentheses together. -/
def nestingStep (depth : Nat) (c : Char) : Nat :=
  if c = '<' ∨ c = '(' then depth + 1
  else if c = '>' ∨ c = ')' then depth - 1
  else depth

/-- The nesting after a text that starts at nesting `depth`. -/
def nestingAfter (depth : Nat) (text : List Char) : Nat :=
  text.foldl nestingStep depth

/-- An empty text leaves the nesting as it is. -/
@[simp] theorem nestingAfter_nil (depth : Nat) : nestingAfter depth [] = depth := rfl

/-- The nesting is counted on behind each character. -/
@[simp] theorem nestingAfter_cons (depth : Nat) (c : Char) (rest : List Char) :
    nestingAfter depth (c :: rest) = nestingAfter (nestingStep depth c) rest := rfl

/-- The depth behind two texts is reached by the second from where the first has ended. -/
@[simp] theorem nestingAfter_append (depth : Nat) (first second : List Char) :
    nestingAfter depth (first ++ second) = nestingAfter (nestingAfter depth first) second := by
  simp [nestingAfter]

end DeclGraph.Text
