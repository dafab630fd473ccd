import DeclGraph.Text.Scanning
import DeclGraph.Text.Decode
import Std.Data.ExtTreeMap

/-!
# File paths

A path is a list of bytes, which need not be a text. It is compared component by
component: doubled and trailing separators and inner dots make no difference, a
leading dot does. It is shown by the text of its bytes, so different paths may be
shown alike if their bytes are no text.
-/

namespace DeclGraph

/-- A file path as given. -/
structure FilePath where
  bytes : List UInt8
deriving DecidableEq, Repr, Inhabited

namespace FilePath

/-- The path written as a text. -/
def ofText (text : String) : FilePath := ⟨Text.encode text.toList⟩

/-- The text by which a path is shown. -/
def display (path : FilePath) : String := String.ofList (Text.decode path.bytes)

/-- The byte between the pieces of a path. -/
def separator : UInt8 := 0x2F

/-- The byte of a dot. -/
def dot : UInt8 := 0x2E

/-- One step of a path. -/
inductive Component where
  /-- The root directory, in front of an absolute path. -/
  | root
  /-- The current directory, in front of a relative path. -/
  | here
  /-- The directory above. -/
  | up
  | named (name : List UInt8)
deriving DecidableEq, Repr, Inhabited

namespace Component

/-- The position of the kind of step in the order of components. -/
def rank : Component → Nat
  | .root => 0
  | .here => 1
  | .up => 2
  | .named _ => 3

/-- The name of a named step. -/
def name? : Component → Option (List UInt8)
  | .named name => some name
  | _ => none

instance : Ord Component where
  compare := compareLex (compareOn Component.rank) (compareOn Component.name?)

instance : Std.TransOrd Component :=
  inferInstanceAs (Std.TransCmp
    (compareLex (compareOn Component.rank) (compareOn Component.name?)))

instance : Std.LawfulEqOrd Component where
  compare_self := by intro component; exact Std.ReflCmp.compare_self
  eq_of_compare := by
    intro first second same
    obtain ⟨ranks, names⟩ := compareLex_eq_eq.mp same
    have sameRank : first.rank = second.rank := Std.LawfulEqOrd.eq_of_compare ranks
    have sameName : first.name? = second.name? := Std.LawfulEqOrd.eq_of_compare names
    cases first <;> cases second <;> simp_all [rank, name?]

end Component

/-- The steps written in a piece between separators; empty pieces and dots
say nothing. -/
def componentOf (piece : List UInt8) : List Component :=
  if piece = [] ∨ piece = [dot] then []
  else if piece = [dot, dot] then [.up]
  else [.named piece]

/-- The components of a path. -/
def components (path : FilePath) : List Component :=
  let pieces := Text.cutAt separator path.bytes
  let front :=
    if path.bytes.head? = some separator then [.root]
    else if pieces.head? = some [dot] then [.here]
    else []
  front ++ pieces.flatMap componentOf

/-- Whether two paths have the same components. -/
def same (first second : FilePath) : Bool :=
  first.components = second.components

/-- Whether a path comes before another or is the same, component by
component. -/
def notAfter (first second : FilePath) : Bool :=
  compare first.components second.components != .gt

/-- Paths are sorted by their components. -/
theorem notAfter_eq_isLE (first second : FilePath) :
    first.notAfter second = (compare first.components second.components).isLE := by
  unfold notAfter
  cases compare first.components second.components <;> rfl

/-- The order of paths is transitive. -/
theorem notAfter_trans {first second third : FilePath} (before : first.notAfter second)
    (behind : second.notAfter third) : first.notAfter third := by
  rw [notAfter_eq_isLE] at *
  exact Std.TransCmp.isLE_trans before behind

/-- Any two paths can be ordered. -/
theorem notAfter_total (first second : FilePath) :
    first.notAfter second || second.notAfter first := by
  have swapped : compare second.components first.components =
      (compare first.components second.components).swap := Std.OrientedCmp.eq_swap
  simp only [notAfter_eq_isLE, swapped]
  cases compare first.components second.components <;> rfl

/-- Paths that are not after each other have the same components. -/
theorem components_eq_of_notAfter {first second : FilePath} (before : first.notAfter second)
    (behind : second.notAfter first) : first.components = second.components := by
  rw [notAfter_eq_isLE] at before behind
  exact Std.LawfulEqOrd.eq_of_compare (Std.OrientedCmp.isLE_antisymm before behind)

/-- The ending of a file name behind its last dot. A dot in front of the name
starts no ending. -/
def endingOf (name : List UInt8) : Option (List UInt8) :=
  let ending := (name.reverse.takeWhile (· ≠ dot)).reverse
  if ending.length + 1 < name.length then some ending else none

/-- The extension of the file a path leads to, as it is shown. -/
def extension? (path : FilePath) : Option String :=
  match path.components.getLast? with
  | some (.named name) => (endingOf name).map fun ending => String.ofList (Text.decode ending)
  | _ => none

/-- The name under which the unnamed namespaces of a file are kept. -/
def unnamedNamespace (path : FilePath) : String := "(anonymous " ++ path.display ++ ")"

end FilePath

end DeclGraph
