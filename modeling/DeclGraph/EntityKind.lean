import Std.Data.ExtTreeMap

/-!
# Kinds of entities

Every declared entity has a kind. Kinds fall into families: two declarations of
one name whose kinds are of one family may speak of the same entity, as when
what is announced as a struct turns out to be a class.
-/

namespace DeclGraph

/-- The identity family of a kind. -/
inductive Family where
  /-- Namespaces and record types. -/
  | scope
  /-- Functions, methods, constructors and destructors. -/
  | callable
  /-- Type aliases. -/
  | typeAlias
  /-- Data members. -/
  | field
  /-- Stand-ins for entities outside the analysed code. -/
  | placeholder
deriving DecidableEq, Repr, Inhabited

namespace Family

/-- The position of the family in the order of keys. -/
def rank : Family → Nat
  | .scope => 0
  | .callable => 1
  | .typeAlias => 2
  | .field => 3
  | .placeholder => 4

/-- The written name of the family. -/
def display : Family → String
  | .scope => "Scope"
  | .callable => "Callable"
  | .typeAlias => "Alias"
  | .field => "Field"
  | .placeholder => "External"

/-- Families of one rank are the same. -/
theorem rank_injective {first second : Family} (same : first.rank = second.rank) :
    first = second := by
  cases first <;> cases second <;> first | rfl | cases same

instance : Ord Family where
  compare first second := compare first.rank second.rank

instance : Std.TransOrd Family :=
  inferInstanceAs (Std.TransCmp (compareOn Family.rank))

instance : Std.LawfulEqOrd Family where
  compare_self := by intro family; exact Std.ReflOrd.compare_self (α := Nat)
  eq_of_compare := by
    intro first second same
    exact rank_injective (Std.LawfulEqOrd.eq_of_compare same)

end Family

/-- The kind of a declared entity. -/
inductive EntityKind where
  | namespaceScope
  | classRecord
  | structRecord
  | freeFunction
  | method
  | constructor
  | destructor
  | typeAlias
  | field
  /-- A stand-in for an entity outside the analysed code. -/
  | placeholder
deriving DecidableEq, Repr, Inhabited

namespace EntityKind

/-- The identity family of the kind. -/
def family : EntityKind → Family
  | .namespaceScope | .classRecord | .structRecord => .scope
  | .freeFunction | .method | .constructor | .destructor => .callable
  | .typeAlias => .typeAlias
  | .field => .field
  | .placeholder => .placeholder

/-- Whether the kind is a class or a struct. -/
def isRecord : EntityKind → Bool
  | .classRecord | .structRecord => true
  | _ => false

/-- Whether entities of the kind can be called. -/
def isCallable (kind : EntityKind) : Bool :=
  kind.family = .callable

/-- Whether entities of the kind may share a name within one scope. The
constructors of a record overload each other, its destructor stands alone. -/
def isOverloadable : EntityKind → Bool
  | .freeFunction | .method | .constructor => true
  | _ => false

/-- Whether a type reference can mean an entity of the kind. -/
def isType : EntityKind → Bool
  | .classRecord | .structRecord | .typeAlias => true
  | _ => false

/-- The written name of the kind. -/
def display : EntityKind → String
  | .namespaceScope => "Namespace"
  | .classRecord => "Class"
  | .structRecord => "Struct"
  | .freeFunction => "Function"
  | .method => "Method"
  | .constructor => "Constructor"
  | .destructor => "Destructor"
  | .typeAlias => "TypeAlias"
  | .field => "Field"
  | .placeholder => "External"

end EntityKind

end DeclGraph
