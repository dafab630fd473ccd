import Std.Data.ExtTreeMap

/-!
# Relations between entities

The edges of a declaration graph carry one of seven relations. A walk follows
them forwards, backwards or both ways.
-/

namespace DeclGraph

/-- The meaning of an edge. -/
inductive Relation where
  /-- A scope holds a member. -/
  | contains
  /-- A record derives from a base record. -/
  | inherits
  /-- A method replaces a method of a base record. -/
  | overrides
  /-- Two callables share scope and name and differ in their signatures. -/
  | overloads
  /-- The body of a callable calls another. -/
  | calls
  /-- A record has a data member whose type names the target. -/
  | hasField
  /-- A declaration or a body mentions a type. -/
  | usesType
deriving DecidableEq, Repr, Inhabited

namespace Relation

/-- All relations, in their fixed order. -/
def all : List Relation :=
  [.contains, .inherits, .overrides, .overloads, .calls, .hasField, .usesType]

/-- The position of the relation in the fixed order. -/
def rank : Relation → Nat
  | .contains => 0
  | .inherits => 1
  | .overrides => 2
  | .overloads => 3
  | .calls => 4
  | .hasField => 5
  | .usesType => 6

/-- The written name of the relation. -/
def display : Relation → String
  | .contains => "Contains"
  | .inherits => "Inherits"
  | .overrides => "Overrides"
  | .overloads => "Overloads"
  | .calls => "Calls"
  | .hasField => "HasField"
  | .usesType => "UsesType"

/-- Relations of one rank are the same. -/
theorem rank_injective {first second : Relation} (same : first.rank = second.rank) :
    first = second := by
  cases first <;> cases second <;> first | rfl | cases same

instance : Ord Relation where
  compare first second := compare first.rank second.rank

instance : Std.TransOrd Relation :=
  inferInstanceAs (Std.TransCmp (compareOn Relation.rank))

instance : Std.LawfulEqOrd Relation where
  compare_self := by intro relation; exact Std.ReflOrd.compare_self (α := Nat)
  eq_of_compare := by
    intro first second same
    exact rank_injective (Std.LawfulEqOrd.eq_of_compare same)

end Relation

/-- The way in which edges are followed. -/
inductive Direction where
  | outgoing
  | incoming
  | both
deriving DecidableEq, Repr, Inhabited

end DeclGraph
