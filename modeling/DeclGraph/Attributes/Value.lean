import Std.Data.ExtTreeSet

/-!
# Attribute values

An attribute of an entity or an edge holds a text, a number, a flag, or a list
of texts or numbers. Lists are combined as sets and kept in increasing order.
-/

namespace DeclGraph

/-- What an attribute can hold. Numbers are signed words of 64 bits. -/
inductive Value where
  | text (value : String)
  | int (value : Int64)
  | flag (value : Bool)
  | texts (values : List String)
  | ints (values : List Int64)
deriving DecidableEq, Repr, Inhabited

/-- The strictly increasing list of all values of two lists. -/
def sortedUnion {α : Type} [Ord α] [Std.TransOrd α] (first second : List α) : List α :=
  (Std.ExtTreeSet.ofList (first ++ second)).toList

/-- A sorted union has the values of both lists. -/
@[simp] theorem mem_sortedUnion {α : Type} [Ord α] [Std.TransOrd α] [Std.LawfulEqOrd α]
    [BEq α] [LawfulBEq α] {first second : List α} {value : α} :
    value ∈ sortedUnion first second ↔ value ∈ first ∨ value ∈ second := by
  simp [sortedUnion, Std.ExtTreeSet.mem_toList]

/-- A union is strictly increasing. -/
theorem sortedUnion_increasing {α : Type} [Ord α] [Std.TransOrd α] (first second : List α) :
    (sortedUnion first second).Pairwise fun left right => compare left right = .lt :=
  Std.ExtTreeSet.ordered_toList

namespace Value

/-- A count or a line number, which is kept modulo 2 to the 64 and read as a
signed number. -/
def ofCount (count : Nat) : Value := .int (Int64.ofNat count)

/-- The text held, if a text is held. -/
def text? : Value → Option String
  | .text value => some value
  | _ => none

/-- The number held, if a number is held. -/
def int? : Value → Option Int64
  | .int value => some value
  | _ => none

/-- The flag held, if a flag is held. -/
def flag? : Value → Option Bool
  | .flag value => some value
  | _ => none

/-- The texts held, if a list of texts is held. -/
def texts? : Value → Option (List String)
  | .texts values => some values
  | _ => none

/-- The numbers held, if a list of numbers is held. -/
def ints? : Value → Option (List Int64)
  | .ints values => some values
  | _ => none

end Value

end DeclGraph
