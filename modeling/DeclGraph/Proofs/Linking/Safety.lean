import DeclGraph.Linking.Calls
import DeclGraph.Proofs.Linking.Types

/-!
# Linking bases and calls never fails

Every node that is related for a base or a call is a node of the graph: referring
nodes are looked up by key, and targets are found by name, reached through
aliases, or stand-ins.
-/

namespace DeclGraph

namespace Catalogue

variable {catalogue : Catalogue}

/-- A child of a scope is in the graph. -/
theorem hasNode_of_mem_children (sound : catalogue.graph.Sound) {scope id : Nat}
    (member : id ∈ catalogue.graph.children scope) : catalogue.HasNode id :=
  (sound.there_of_related (sound.mem_children.mp member)).2

/-- What constructing a record calls is in the graph. -/
theorem hasNode_of_mem_constructorsOf (sound : catalogue.graph.Sound) {count record id : Nat}
    (there : catalogue.HasNode record) (member : id ∈ catalogue.constructorsOf count record) :
    catalogue.HasNode id := by
  unfold constructorsOf at member
  dsimp only at member
  split at member
  · rw [List.mem_singleton] at member
    exact member ▸ there
  · have listed := (catalogue.mem_narrowed.mp member).1
    exact hasNode_of_mem_children sound (List.mem_filter.mp listed).1

/-- A type that a name means at a place is in the graph. -/
theorem hasNode_of_typeAt? (sound : catalogue.graph.Sound) {place : CallPlace} {name : String}
    {id : Nat} (found : catalogue.typeAt? place name = some id) : catalogue.HasNode id := by
  obtain ⟨type, first, rfl⟩ := Option.map_eq_some_iff.mp found
  exact hasNode_dealias sound
    (accepts_of_mem_resolveFrom (List.mem_of_mem_head? first)).hasNode

/-- All declared callees are nodes of the graph. -/
inductive AllThere (catalogue : Catalogue) : Callees → Prop where
  | known {nodes : List Nat} (there : ∀ id ∈ nodes, catalogue.HasNode id) :
    AllThere catalogue (.known nodes)
  | unknown (spelling : String) : AllThere catalogue (.unknown spelling)

/-- Everything is there when nothing is called. -/
theorem allThere_nothing : catalogue.AllThere (.known []) := .known fun _ member => by cases member

/-- Everything is there when one node of the graph is called. -/
theorem allThere_single {id : Nat} (there : catalogue.HasNode id) :
    catalogue.AllThere (.known [id]) := by
  refine .known fun other member => ?_
  rw [List.mem_singleton] at member
  exact member ▸ there

/-- Everything that constructing a record calls is there. -/
theorem allThere_constructorsOf (sound : catalogue.graph.Sound) {count record : Nat}
    (there : catalogue.HasNode record) :
    catalogue.AllThere (.known (catalogue.constructorsOf count record)) :=
  .known fun _ member => hasNode_of_mem_constructorsOf sound there member

/-- Narrowing candidates by their arguments leaves them there. -/
theorem allThere_narrowed {count : Nat} {candidates : List Nat}
    (there : ∀ id ∈ candidates, catalogue.HasNode id) :
    catalogue.AllThere (.known (catalogue.narrowed count candidates)) :=
  .known fun id member => there id (catalogue.mem_narrowed.mp member).1

/-- Everything that a plain call means is there. -/
theorem allThere_plainCallees (sound : catalogue.graph.Sound) (place : CallPlace) (call : Call) :
    catalogue.AllThere (catalogue.plainCallees place call) := by
  have there := fun id => @accepts_of_mem_resolveFrom catalogue
    (fun node => node.kind.isCallable || node.kind.isType) place.viewpoint
    (Spelling.withoutArguments call.callee) place.scope id
  unfold plainCallees
  dsimp only
  generalize catalogue.resolveFrom place.viewpoint
    (fun node => node.kind.isCallable || node.kind.isType)
    (Spelling.withoutArguments call.callee) place.scope = found at there ⊢
  split
  · exact .unknown _
  · cases first : found.find? catalogue.isType with
    | none => exact allThere_narrowed fun id member => (there id member).hasNode
    | some type =>
      have target := hasNode_dealias sound (there type (List.mem_of_find?_eq_some first)).hasNode
      dsimp only
      split
      · exact allThere_constructorsOf sound target
      · exact allThere_single target

/-- Everything that a construction means is there. -/
theorem allThere_constructionCallees (sound : catalogue.graph.Sound) (place : CallPlace)
    (call : Call) : catalogue.AllThere (catalogue.constructionCallees place call) := by
  unfold constructionCallees
  cases Spelling.baseName? call.callee with
  | none => exact allThere_nothing
  | some name =>
    dsimp only
    split
    · exact allThere_nothing
    · cases found : catalogue.typeAt? place name with
      | none => exact .unknown _
      | some target =>
        have there := hasNode_of_typeAt? sound found
        dsimp only
        split
        · exact allThere_constructorsOf sound there
        · split
          · exact allThere_single there
          · exact .unknown _

/-- Everything that a call of a member means is there. -/
theorem allThere_memberCallees (count : Nat) (member : String) (receiver : Nat) :
    catalogue.AllThere (catalogue.memberCallees count member receiver) := by
  unfold memberCallees
  cases catalogue.graph.nodeTable[receiver]? with
  | none => exact .unknown _
  | some node =>
    have there : ∀ id ∈ (if node.kind.isRecord then
        catalogue.lookupMember (fun node => node.kind.isCallable) member receiver else []),
        catalogue.HasNode id := by
      intro id listed
      split at listed
      · exact (accepts_of_mem_lookupMember listed).hasNode
      · cases listed
    dsimp only
    generalize (if node.kind.isRecord then
      catalogue.lookupMember (fun node => node.kind.isCallable) member receiver else []) = found
      at there ⊢
    split
    · exact .unknown _
    · exact allThere_narrowed there

/-- Everything that a call through a receiver means is there. -/
theorem allThere_receiverCallees (place : CallPlace) (call : Call) :
    catalogue.AllThere (catalogue.receiverCallees place call) := by
  unfold receiverCallees
  cases call.receiver with
  | absent => exact .unknown _
  | expression => exact .unknown _
  | self =>
    dsimp only
    split
    · exact allThere_memberCallees _ _ _
    · exact .unknown _
  | named variableName =>
    dsimp only
    cases (catalogue.variableType? place variableName).bind Spelling.baseName? with
    | none => exact .unknown _
    | some type =>
      dsimp only
      split
      · exact .unknown _
      · cases catalogue.typeAt? place type with
        | none => exact .unknown _
        | some receiver => exact allThere_memberCallees _ _ _

/-- Whatever a call means is a node of the graph. -/
theorem allThere_callees (sound : catalogue.graph.Sound) (place : CallPlace) (call : Call) :
    catalogue.AllThere (catalogue.callees place call) := by
  cases style : call.style with
  | plain =>
    simp only [callees, style]
    exact allThere_plainCallees sound place call
  | construct =>
    simp only [callees, style]
    exact allThere_constructionCallees sound place call
  | member =>
    simp only [callees, style]
    exact allThere_receiverCallees place call

end Catalogue

namespace Linking

variable {before : Linking}

/-- Linking a base class succeeds and adds nothing but inheritance. -/
theorem succeeds_linkBase {viewpoint : Viewpoint} {base : Base} {derived : Nat}
    (housed : before.catalogue.Housed []) (there : before.catalogue.HasNode derived) :
    Succeeds (linkBase viewpoint base derived) before fun _ => before.Grows [.inherits] := by
  refine succeeds_bind ((succeeds_namedType [.inherits] housed there).weaken ?_)
  rintro meant middle ⟨grows, means⟩
  have housedMiddle := grows.housed housed
  cases meant with
  | none => exact succeeds_pure grows
  | some found =>
    refine succeeds_bind (succeeds_get ?_)
    dsimp only
    split
    · rename_i apart
      have target := Catalogue.hasNode_dealias housedMiddle.sound
        (means.isUsable grows housed).hasNode
      have joins := Bond.joins_inherits ((∅ : Attributes).insert AttributeName.inheritanceAccess
        (.text base.access.keyword)) (grows.hasNode housed there) target apart
      exact (succeeds_relate List.mem_cons_self joins).weaken fun _ _ more => grows.trans more.1
    · exact succeeds_pure grows

/-- The pass over base classes succeeds and adds nothing but inheritance. -/
theorem succeeds_linkBases (housed : before.catalogue.Housed [])
    (references : List SeenReference) :
    Succeeds (linkBases references) before fun _ => before.Grows [.inherits] := by
  refine succeeds_forM_grows fun item _ linking sofar => ?_
  have housedHere := sofar.housed housed
  split
  · exact succeeds_forEntity_grows housedHere fun _ there => succeeds_linkBase housedHere there
  · exact succeeds_pure .refl

/-- Linking a call succeeds and adds nothing but calls. -/
theorem succeeds_linkCall {place : CallPlace} {caller : Nat} {call : Call}
    (housed : before.catalogue.Housed []) (there : before.catalogue.HasNode caller) :
    Succeeds (linkCall place caller call) before fun _ => before.Grows [.calls] := by
  refine succeeds_bind (succeeds_get ?_)
  have nodes : Succeeds (calleeNodes place caller (before.catalogue.callees place call)) before
      fun targets after => before.Grows [.calls] after ∧
        ∀ id ∈ targets, after.catalogue.HasNode id := by
    have allThere := Catalogue.allThere_callees housed.sound place call
    generalize before.catalogue.callees place call = callees at allThere
    cases allThere with
    | known there => exact succeeds_pure ⟨.refl, there⟩
    | unknown spelling =>
      refine succeeds_bind ((succeeds_substitute [.calls] housed there).weaken ?_)
      rintro id after ⟨grows, carried⟩
      refine succeeds_pure ⟨grows, ?_⟩
      intro other member
      rw [List.mem_singleton] at member
      rw [member, Catalogue.HasNode, carried]
      rfl
  refine succeeds_bind (nodes.weaken ?_)
  rintro targets after ⟨grows, allThere⟩
  have housedAfter := grows.housed housed
  refine (succeeds_forM_grows fun target member linking more => ?_).weaken
    fun _ _ more => grows.trans more
  have joins := Bond.joins_calls
    ((∅ : Attributes).insert AttributeName.callLines (.ints [Int64.ofNat call.line]))
    (more.hasNode housedAfter (grows.hasNode housed there))
    (more.hasNode housedAfter (allThere target member))
  exact (succeeds_relate List.mem_cons_self joins).weaken fun _ _ more => more.1

/-- Linking the calls of a body succeeds and adds nothing but calls. -/
theorem succeeds_linkBody {viewpoint : Viewpoint} {parameters : List Parameter} {body : Body}
    {caller : Nat} (housed : before.catalogue.Housed [])
    (there : before.catalogue.HasNode caller) :
    Succeeds (linkBody viewpoint parameters body caller) before fun _ =>
      before.Grows [.calls] := by
  refine succeeds_bind (succeeds_get ?_)
  exact succeeds_forM_grows fun _ _ _ sofar =>
    succeeds_linkCall (sofar.housed housed) (sofar.hasNode housed there)

/-- The pass over calls succeeds and adds nothing but calls. -/
theorem succeeds_linkCalls (housed : before.catalogue.Housed [])
    (references : List SeenReference) :
    Succeeds (linkCalls references) before fun _ => before.Grows [.calls] := by
  refine succeeds_forM_grows fun item _ linking sofar => ?_
  have housedHere := sofar.housed housed
  split
  · exact succeeds_forEntity_grows housedHere fun _ there => succeeds_linkBody housedHere there
  · exact succeeds_pure .refl

end Linking

end DeclGraph
