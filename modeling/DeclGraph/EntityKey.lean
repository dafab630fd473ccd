import DeclGraph.EntityKind
import DeclGraph.ScopedName

/-!
# Identity of entities

Declarations that speak of one entity are recognised by a key: the family of
its kind, its scoped name and, for callables, the types of its parameters.
-/

namespace DeclGraph

/-- The identity of an entity. -/
structure EntityKey where
  family : Family
  name : ScopedName
  /-- The parameter types and qualifiers of a callable, in canonical form. -/
  signature : Option String
deriving DecidableEq, Repr, Inhabited

namespace EntityKey

/-- The key of a namespace or a record. -/
def scope (name : ScopedName) : EntityKey := ⟨.scope, name, none⟩

/-- The key of the global namespace. -/
def global : EntityKey := scope .global

/-- The key of a callable. -/
def callable (name : ScopedName) (signature : String) : EntityKey :=
  ⟨.callable, name, some signature⟩

/-- The key of a type alias. -/
def typeAlias (name : ScopedName) : EntityKey := ⟨.typeAlias, name, none⟩

/-- The key of a data member. -/
def field (name : ScopedName) : EntityKey := ⟨.field, name, none⟩

/-- The key of the stand-in for a spelling that means nothing known. -/
def placeholder (spelling : String) : EntityKey :=
  ⟨.placeholder, .ofSpelling spelling, none⟩

/-- The key of the scope that holds the entity; the global namespace has none. -/
def enclosing? (key : EntityKey) : Option EntityKey :=
  key.name.parent?.map scope

/-- The written form: family, name and signature. -/
def display (key : EntityKey) : String :=
  key.family.display ++ ":" ++ key.name.display ++ key.signature.getD ""

/-- Keys are ordered by family, then name, then signature, and a key without a
signature comes before all with one. -/
instance : Ord EntityKey where
  compare := compareLex (compareOn EntityKey.family)
    (compareLex (compareOn EntityKey.name) (compareOn EntityKey.signature))

instance : Std.TransOrd EntityKey :=
  inferInstanceAs (Std.TransCmp (compareLex (compareOn EntityKey.family)
    (compareLex (compareOn EntityKey.name) (compareOn EntityKey.signature))))

instance : Std.LawfulEqOrd EntityKey where
  compare_self := by intro key; exact Std.ReflCmp.compare_self
  eq_of_compare := by
    intro first second same
    obtain ⟨family, rest⟩ := compareLex_eq_eq.mp same
    obtain ⟨name, signature⟩ := compareLex_eq_eq.mp rest
    have sameFamily : first.family = second.family := Std.LawfulEqOrd.eq_of_compare family
    have sameName : first.name = second.name := Std.LawfulEqOrd.eq_of_compare name
    have sameSignature : first.signature = second.signature :=
      Std.LawfulEqOrd.eq_of_compare signature
    cases first
    cases second
    simp_all

end EntityKey

end DeclGraph
