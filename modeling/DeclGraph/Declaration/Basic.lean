import DeclGraph.Declaration.Body
import DeclGraph.Declaration.Signature
import DeclGraph.EntityKey

/-!
# Declarations

A declaration is what one place in a source file says about one entity: its
announcement, its declaration inside a record, or its definition.
-/

namespace DeclGraph

/-- What is known about a scope that encloses a declaration. -/
inductive ScopeKind where
  | namespaceScope
  | classRecord
  | structRecord
  /-- The scope is known from a qualifier only. -/
  | unknown
deriving DecidableEq, Repr, Inhabited

/-- Whether the scope is known to be a class or a struct. -/
def ScopeKind.isRecord : ScopeKind → Bool
  | .classRecord | .structRecord => true
  | _ => false

/-- One scope around a declaration. -/
structure ScopeStep where
  name : String
  kind : ScopeKind
deriving DecidableEq, Repr, Inhabited

/-- Who may use a member of a record. -/
inductive Access where
  | everyone
  | derivedRecords
  | ownRecord
deriving DecidableEq, Repr, Inhabited

/-- The keyword of an access. -/
def Access.keyword : Access → String
  | .everyone => "public"
  | .derivedRecords => "protected"
  | .ownRecord => "private"

/-- A base record in the head of a record. -/
structure Base where
  /-- The name as spelled. -/
  name : String
  access : Access
  isVirtual : Bool
deriving DecidableEq, Repr, Inhabited

/-- The words in front of and behind a callable that say how it is bound. -/
structure Modifiers where
  isVirtual : Bool := false
  isOverride : Bool := false
  isFinal : Bool := false
  isPure : Bool := false
  isStatic : Bool := false
  isDefaulted : Bool := false
  isDeleted : Bool := false
deriving DecidableEq, Repr, Inhabited

/-- One declaration of an entity. -/
structure Declaration where
  kind : EntityKind
  name : String
  /-- The enclosing scopes, outermost first. -/
  scope : List ScopeStep := []
  /-- Callables only. -/
  signature : Option Signature := none
  /-- The declaration has a body. -/
  isDefinition : Bool := false
  /-- The line of the name, counted from one. -/
  line : Nat
  /-- Members of records only. -/
  access : Option Access := none
  modifiers : Modifiers := {}
  /-- Records only. -/
  bases : List Base := []
  templateParameters : List String := []
  /-- Aliases only. -/
  underlyingType : Option String := none
  /-- Data members only. -/
  fieldType : Option String := none
  /-- Callables with a body only. -/
  body : Option Body := none
deriving DecidableEq, Repr, Inhabited

namespace Declaration

/-- The name of the scope around the declaration. -/
def scopeName (declaration : Declaration) : ScopedName :=
  ⟨declaration.scope.map (·.name)⟩

/-- The full name of the declared entity. -/
def scopedName (declaration : Declaration) : ScopedName :=
  declaration.scopeName.child declaration.name

/-- The identity of the declared entity. A callable without a signature is
taken to have no parameters. -/
def key (declaration : Declaration) : EntityKey :=
  match declaration.kind.family with
  | .scope => .scope declaration.scopedName
  | .callable =>
    .callable declaration.scopedName ((declaration.signature.map (·.identity)).getD "()")
  | .typeAlias => .typeAlias declaration.scopedName
  | .field => .field declaration.scopedName
  | .placeholder => .placeholder declaration.scopedName.display

/-- Whether the declaration stands directly inside a record. -/
def isMember (declaration : Declaration) : Bool :=
  declaration.scope.getLast?.any (·.kind.isRecord)

/-- How many references to other entities the declaration carries: its bases
and, in its body, calls and variables. -/
def referenceCount (declaration : Declaration) : Nat :=
  declaration.bases.length
    + (declaration.body.map fun body => body.calls.length + body.locals.length).getD 0

/-- The scopes around the declaration, from the outside in, each with its full
name. -/
def enclosing (declaration : Declaration) : List (ScopedName × ScopeKind) :=
  go .global declaration.scope
where
  /-- The scopes below `outer`. -/
  go (outer : ScopedName) : List ScopeStep → List (ScopedName × ScopeKind)
    | [] => []
    | step :: steps => (outer.child step.name, step.kind) :: go (outer.child step.name) steps

end Declaration

end DeclGraph
