/-!
# Signatures

The parameters, the result type and the qualifiers of a callable. Two callables
of one name are told apart by the types of their parameters and by whether they
may be called on constants.
-/

namespace DeclGraph

/-- One parameter of a callable. -/
structure Parameter where
  name : Option String
  /-- The type in canonical form. -/
  type : String
  hasDefault : Bool
deriving DecidableEq, Repr, Inhabited

/-- How a callable is called and what it returns. -/
structure Signature where
  parameters : List Parameter
  /-- The result type; constructors and destructors have none. -/
  returnType : Option String
  /-- A member function that may be called on constants. -/
  isConst : Bool
  /-- The parameter list ends in an ellipsis. -/
  isVariadic : Bool
deriving DecidableEq, Repr, Inhabited

namespace Signature

/-- The parameter types in order. -/
def parameterTypes (signature : Signature) : List String :=
  signature.parameters.map (·.type)

/-- The parameter names in order, empty where there is none. -/
def parameterNames (signature : Signature) : List String :=
  signature.parameters.map fun parameter => parameter.name.getD ""

/-- The text that tells overloads apart, as in `(int,double)const`. -/
def identity (signature : Signature) : String :=
  let types := signature.parameterTypes ++ (if signature.isVariadic then ["..."] else [])
  "(" ++ ",".intercalate types ++ ")" ++ (if signature.isConst then "const" else "")

/-- How many arguments a call needs at least: one for each parameter without a
default. -/
def minArity (signature : Signature) : Nat :=
  (signature.parameters.filter fun parameter => !parameter.hasDefault).length

/-- How many arguments a call may have at most; an ellipsis takes any number. -/
def maxArity? (signature : Signature) : Option Nat :=
  if signature.isVariadic then none else some signature.parameters.length

/-- Whether a call with this many arguments fits. -/
def accepts (signature : Signature) (count : Nat) : Bool :=
  signature.minArity ≤ count && signature.maxArity?.all (count ≤ ·)

end Signature

end DeclGraph
