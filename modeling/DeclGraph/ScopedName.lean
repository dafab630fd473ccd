import DeclGraph.Text.Scanning

/-!
# Scoped names

A scoped name lists the enclosing namespaces and records of an entity from the
outermost to the innermost and ends with its own name. The empty list is the
global namespace. Names are written with `::` between their segments.
-/

namespace DeclGraph

/-- The path of names from the global namespace to an entity. -/
structure ScopedName where
  /-- The segments from outermost to innermost. -/
  segments : List String
deriving DecidableEq, Repr, Inhabited

namespace ScopedName

/-- The global namespace. -/
def global : ScopedName := ⟨[]⟩

/-- The number of segments. -/
def length (name : ScopedName) : Nat := name.segments.length

/-- Whether the name is that of the global namespace. -/
def isGlobal (name : ScopedName) : Bool := name.segments.isEmpty

/-- The last segment, empty for the global namespace. -/
def simple (name : ScopedName) : String := name.segments.getLastD ""

/-- The name of the enclosing scope; the global namespace has none. -/
def parent? (name : ScopedName) : Option ScopedName :=
  if name.isGlobal then none else some ⟨name.segments.dropLast⟩

/-- The name of a member of this scope. -/
def child (name : ScopedName) (segment : String) : ScopedName :=
  ⟨name.segments ++ [segment]⟩

/-- The name reached from this scope by further segments. -/
def descend (name : ScopedName) (segments : List String) : ScopedName :=
  ⟨name.segments ++ segments⟩

/-- Whether this name is `scope` or lies below it. -/
def isWithin (name scope : ScopedName) : Bool :=
  scope.segments.isPrefixOf name.segments

/-- The written form: segments joined by `::`, and `::` alone for the name of
the global namespace. -/
def display (name : ScopedName) : String :=
  if name.isGlobal then "::" else "::".intercalate name.segments

/-- A segment as it is kept, trimmed, or nothing when only blanks are left. -/
def segmentOf (pending : List Char) : List String :=
  if (Text.trim pending).isEmpty then [] else [String.ofList (Text.trim pending)]

/-- Cuts a text at every `::` outside brackets. `pending` holds the characters
of the open segment. -/
def splitFrom (depth : Nat) (pending : List Char) : List Char → List String
  | [] => segmentOf pending
  | ':' :: ':' :: rest =>
    if depth = 0 then segmentOf pending ++ splitFrom 0 [] rest
    else splitFrom depth (pending ++ [':']) (':' :: rest)
  | c :: rest => splitFrom (Text.nestingStep depth c) (pending ++ [c]) rest

/-- Reads a written name. Separators inside template argument lists and
parentheses do not split, empty segments and a leading `::` are dropped. -/
def ofSpelling (spelling : String) : ScopedName :=
  ⟨splitFrom 0 [] (Text.trim spelling.toList)⟩

/-- Names are ordered segment by segment, an enclosing scope before its
members. -/
instance : Ord ScopedName where
  compare first second := compare first.segments second.segments

instance : Std.TransOrd ScopedName :=
  inferInstanceAs (Std.TransCmp (compareOn ScopedName.segments))

instance : Std.LawfulEqOrd ScopedName where
  compare_self := by
    intro name
    exact Std.ReflOrd.compare_self (α := List String)
  eq_of_compare := by
    intro first second same
    have equal : first.segments = second.segments := Std.LawfulEqOrd.eq_of_compare same
    cases first
    cases second
    simpa using equal

/-- A child has one segment more than the scope around it. -/
@[simp] theorem child_segments (name : ScopedName) (segment : String) :
    (name.child segment).segments = name.segments ++ [segment] := rfl

/-- The simple name of a child is the segment that was added. -/
@[simp] theorem simple_child (name : ScopedName) (segment : String) :
    (name.child segment).simple = segment := by
  simp [simple, child]

/-- The scope around a child is the one that it was made from. -/
@[simp] theorem parent?_child (name : ScopedName) (segment : String) :
    (name.child segment).parent? = some name := by
  cases name
  simp [parent?, child, isGlobal]

/-- Nothing is around the global namespace. -/
@[simp] theorem parent?_global : global.parent? = none := rfl

/-- A name that has an enclosing scope is a member of it. -/
theorem child_simple_of_parent? {name scope : ScopedName} (enclosing : name.parent? = some scope) :
    scope.child name.simple = name := by
  obtain ⟨segments⟩ := name
  rcases List.eq_nil_or_concat segments with rfl | ⟨front, last, rfl⟩
  · simp [parent?, isGlobal] at enclosing
  · simp [parent?, isGlobal] at enclosing
    subst enclosing
    simp [child, simple]

end ScopedName

end DeclGraph
