import DeclGraph.Linking.Basic

/-!
# Linking calls

A call is linked to every callable it may mean. The name is looked up from the
scope of the caller, a member in the record of its receiver, and among several
callables those are kept that take the number of arguments. The construction of
an object calls the constructors of its record, or the record itself when it
declares none.
-/

namespace DeclGraph

/-- What a call means. -/
inductive Callees where
  /-- Declared callees, none where there is nothing to link. -/
  | known (nodes : List Nat)
  /-- A name that means nothing known. -/
  | unknown (spelling : String)
deriving DecidableEq, Repr

/-- Where calls stand: a scope as seen from a unit, inside a body. -/
structure CallPlace where
  viewpoint : Viewpoint
  scope : Nat
  /-- The template parameters in force, which name no type. -/
  hidden : List String
  /-- The parameters of the caller. -/
  parameters : List Parameter
  body : Body
deriving DecidableEq, Repr

namespace Catalogue

variable (catalogue : Catalogue)

/-- Whether a callable takes a number of arguments. The numbers it takes are
read from its attributes, the smallest as a word of 64 bits. -/
def takes (count : Nat) (id : Nat) : Bool :=
  match catalogue.graph.nodeTable[id]? with
  | none => false
  | some node =>
    let fewest := ((node.attributes.int? AttributeName.minArity).getD 0).toUInt64.toNat
    let most := ((node.attributes.texts? AttributeName.parameterTypes).getD []).length
    node.kind.isCallable && fewest ≤ count
      && (node.attributes.isSet AttributeName.isVariadic || count ≤ most)

/-- The candidates that take a number of arguments, or all when none does. -/
def narrowed (count : Nat) (candidates : List Nat) : List Nat :=
  let fitting := candidates.filter (catalogue.takes count)
  if fitting.isEmpty then candidates else fitting

/-- Narrowing drops a candidate only in favour of one that takes the number of
arguments. -/
theorem mem_narrowed {count id : Nat} {candidates : List Nat} :
    id ∈ catalogue.narrowed count candidates ↔
      id ∈ candidates ∧
        (catalogue.takes count id = true ∨
          ∀ other ∈ candidates, catalogue.takes count other = false) := by
  unfold narrowed
  by_cases none : candidates.filter (catalogue.takes count) = []
  · have never : ∀ other ∈ candidates, catalogue.takes count other = false := by
      simpa [List.filter_eq_nil_iff] using none
    simp only [none, List.isEmpty_nil, if_true]
    exact ⟨fun member => ⟨member, .inr never⟩, fun both => both.1⟩
  · have notEmpty : (candidates.filter (catalogue.takes count)).isEmpty = false := by
      simpa using none
    simp only [notEmpty, Bool.false_eq_true, if_false, List.mem_filter]
    constructor
    · exact fun both => ⟨both.1, .inl both.2⟩
    · rintro ⟨member, fits | never⟩
      · exact ⟨member, fits⟩
      · exact absurd (List.filter_eq_nil_iff.mpr fun other present => by
          simp [never other present]) none

/-- What the construction of a record calls. -/
def constructorsOf (count record : Nat) : List Nat :=
  let constructors := (catalogue.graph.children record).filter fun id =>
    catalogue.kind? id = some .constructor
  if constructors.isEmpty then [record] else catalogue.narrowed count constructors

/-- Whether a node is a type. -/
def isType (id : Nat) : Bool := (catalogue.kind? id).any (·.isType)

/-- The type that a name means at the place of a call, aliases followed. -/
def typeAt? (place : CallPlace) (name : String) : Option Nat :=
  (catalogue.resolveFrom place.viewpoint (fun node => node.kind.isType) name
    place.scope).head?.map catalogue.dealias

/-- What a name applied to arguments means. A type constructs an object. -/
def plainCallees (place : CallPlace) (call : Call) : Callees :=
  let name := Spelling.withoutArguments call.callee
  let found := catalogue.resolveFrom place.viewpoint
    (fun node => node.kind.isCallable || node.kind.isType) name place.scope
  if found.isEmpty then .unknown name
  else
    match found.find? catalogue.isType with
    | none => .known (catalogue.narrowed call.argumentCount found)
    | some type =>
      let target := catalogue.dealias type
      if catalogue.isRecord target then
        .known (catalogue.constructorsOf call.argumentCount target)
      else .known [target]

/-- What the construction of an object calls. -/
def constructionCallees (place : CallPlace) (call : Call) : Callees :=
  match Spelling.baseName? call.callee with
  | none => .known []
  | some name =>
    if place.hidden.contains name then .known []
    else
      match catalogue.typeAt? place name with
      | none => .unknown name
      | some target =>
        if catalogue.isRecord target then
          .known (catalogue.constructorsOf call.argumentCount target)
        else if catalogue.kind? target = some .placeholder then .known [target]
        else .unknown name

/-- The declared type of the data member that a name means. -/
def fieldType? (place : CallPlace) (name : String) : Option String := do
  let field ← (catalogue.resolveFrom place.viewpoint (fun node => node.kind = .field) name
    place.scope).head?
  (← catalogue.graph.nodeTable[field]?).attributes.text? AttributeName.fieldType

/-- The declared type of a variable, a parameter or a data member, in this
order. -/
def variableType? (place : CallPlace) (name : String) : Option String :=
  match place.body.localType? name with
  | some type => some type
  | none =>
    match place.parameters.find? fun parameter => parameter.name = some name with
    | some parameter => some parameter.type
    | none => catalogue.fieldType? place name

/-- What a member of a node applied to arguments means. -/
def memberCallees (count : Nat) (member : String) (receiver : Nat) : Callees :=
  match catalogue.graph.nodeTable[receiver]? with
  | none => .unknown member
  | some node =>
    let found :=
      if node.kind.isRecord then
        catalogue.lookupMember (fun node => node.kind.isCallable) member receiver
      else []
    if found.isEmpty then .unknown (node.key.name.display ++ "::" ++ member)
    else .known (catalogue.narrowed count found)

/-- What a member applied to arguments means. -/
def receiverCallees (place : CallPlace) (call : Call) : Callees :=
  let member := Spelling.withoutArguments call.callee
  match call.receiver with
  | .absent | .expression => .unknown member
  | .self =>
    if catalogue.isRecord place.scope then
      catalogue.memberCallees call.argumentCount member place.scope
    else .unknown member
  | .named variableName =>
    match (catalogue.variableType? place variableName).bind Spelling.baseName? with
    | none => .unknown member
    | some type =>
      if place.hidden.contains type then .unknown member
      else
        match catalogue.typeAt? place type with
        | none => .unknown (type ++ "::" ++ member)
        | some receiver => catalogue.memberCallees call.argumentCount member receiver

/-- What a call means. -/
def callees (place : CallPlace) (call : Call) : Callees :=
  match call.style with
  | .plain => catalogue.plainCallees place call
  | .construct => catalogue.constructionCallees place call
  | .member => catalogue.receiverCallees place call

end Catalogue

namespace Linking

/-- The nodes that stand for the callees of a call. -/
def calleeNodes (place : CallPlace) (caller : Nat) : Callees → Step (List Nat)
  | .known nodes => return nodes
  | .unknown spelling => return [← substitute place.viewpoint caller spelling .call]

/-- Links one call. -/
def linkCall (place : CallPlace) (caller : Nat) (call : Call) : Step Unit := do
  let targets ← calleeNodes place caller ((← get).catalogue.callees place call)
  targets.forM fun target =>
    relate caller target .calls
      ((∅ : Attributes).insert AttributeName.callLines (.ints [Int64.ofNat call.line]))

/-- Links the calls of a body. -/
def linkBody (viewpoint : Viewpoint) (parameters : List Parameter) (body : Body)
    (caller : Nat) : Step Unit := do
  let catalogue := (← get).catalogue
  let place : CallPlace :=
    ⟨viewpoint, catalogue.scopeOf caller, catalogue.templateParameters caller, parameters, body⟩
  body.calls.forM (linkCall place caller)

/-- Links the calls among the references. -/
def linkCalls (references : List SeenReference) : Step Unit :=
  references.forM fun
    | (viewpoint, .body caller parameters body) =>
      forEntity caller (linkBody viewpoint parameters body)
    | _ => pure ()

end Linking

end DeclGraph
