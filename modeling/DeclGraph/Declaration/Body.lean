/-!
# Function bodies

What a function body says about other entities: which calls it makes and which
variables of which types it declares.
-/

namespace DeclGraph

/-- What a member function is called on. -/
inductive Receiver where
  /-- The call has no receiver. -/
  | absent
  /-- The object itself. -/
  | self
  /-- A variable, a parameter or a data member. -/
  | named (name : String)
  /-- Any other expression. -/
  | expression
deriving DecidableEq, Repr, Inhabited

/-- How a call is spelled. -/
inductive CallStyle where
  /-- A name applied to arguments. -/
  | plain
  /-- A member of an object applied to arguments. -/
  | member
  /-- The construction of an object. -/
  | construct
deriving DecidableEq, Repr, Inhabited

/-- A call in a function body. -/
structure Call where
  /-- The name called, or the type constructed, as spelled. -/
  callee : String
  receiver : Receiver
  style : CallStyle
  argumentCount : Nat
  /-- The line of the call, counted from one. -/
  line : Nat
deriving DecidableEq, Repr, Inhabited

/-- A variable declared in a function body. -/
structure Local where
  name : String
  /-- The declared type in canonical form. -/
  type : String
  line : Nat
deriving DecidableEq, Repr, Inhabited

/-- The calls and variables of a function body, in source order. -/
structure Body where
  calls : List Call
  locals : List Local
deriving DecidableEq, Repr, Inhabited

namespace Body

/-- The body without calls and variables. -/
def empty : Body := ⟨[], []⟩

/-- Whether the body says nothing. -/
def isEmpty (body : Body) : Bool := body.calls.isEmpty && body.locals.isEmpty

/-- The type of a variable. Of several variables of one name the last counts. -/
def localType? (body : Body) (name : String) : Option String :=
  (body.locals.reverse.find? fun held => held.name = name).map (·.type)

end Body

end DeclGraph
