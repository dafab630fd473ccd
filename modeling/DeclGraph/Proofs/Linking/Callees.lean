import DeclGraph.Proofs.Linking.Frame
import DeclGraph.Proofs.Linking.Safety

/-!
# What calls mean

What a call means is looked up in the graph as it stands. Edges that lookups do not follow and
stand-ins change none of these lookups, so a call means the same while calls are being linked
and in the finished graph. A name applied to arguments and a member applied to arguments always
mean something, if only an unknown name.
-/

namespace DeclGraph

/-- A node is among the callees: one of those that are known, or the stand-in of an unknown
name. -/
inductive Callees.Includes (graph : Graph) : Callees → Nat → Prop where
  | known {nodes : List Nat} {id : Nat} (member : id ∈ nodes) : Includes graph (.known nodes) id
  | unknown {spelling : String} {id : Nat}
    (carried : graph.key? id = some (.placeholder spelling)) : Includes graph (.unknown spelling) id

/-- The call has something to be linked to: a known callee or an unknown name. -/
def Callees.IsSome (callees : Callees) : Prop := callees ≠ .known []

namespace Catalogue

variable {catalogue : Catalogue} {place : CallPlace} {call : Call}

/-- Where the calls of a body stand. -/
def placeOf (catalogue : Catalogue) (viewpoint : Viewpoint) (caller : Nat)
    (parameters : List Parameter) (body : Body) : CallPlace :=
  ⟨viewpoint, catalogue.scopeOf caller, catalogue.templateParameters caller, parameters, body⟩

/-- A node is among what a call means. -/
def Targets (catalogue : Catalogue) (place : CallPlace) (call : Call) (target : Nat) : Prop :=
  (catalogue.callees place call).Includes catalogue.graph target

section Some

/-- Narrowing leaves a candidate where there was one. -/
theorem narrowed_ne_nil {count : Nat} {candidates : List Nat} (some : candidates ≠ []) :
    catalogue.narrowed count candidates ≠ [] := by
  unfold narrowed
  dsimp only
  split
  · exact some
  · rename_i fitting
    simpa using fitting

/-- Constructing a record calls something, if only the record itself. -/
theorem constructorsOf_ne_nil (count record : Nat) :
    catalogue.constructorsOf count record ≠ [] := by
  unfold constructorsOf
  dsimp only
  split
  · exact List.cons_ne_nil _ _
  · rename_i constructors
    exact narrowed_ne_nil (by simpa using constructors)

/-- The rules for a plain call always give an answer. -/
theorem isSome_plainCallees : (catalogue.plainCallees place call).IsSome := by
  unfold plainCallees Callees.IsSome
  dsimp only
  split
  · exact nofun
  · rename_i found
    split
    · exact fun same => narrowed_ne_nil (by simpa using found) (Callees.known.inj same)
    · split
      · exact fun same => constructorsOf_ne_nil _ _ (Callees.known.inj same)
      · exact nofun

/-- The rules for a call of a member always give an answer. -/
theorem isSome_memberCallees (count : Nat) (member : String) (receiver : Nat) :
    (catalogue.memberCallees count member receiver).IsSome := by
  unfold memberCallees Callees.IsSome
  cases catalogue.graph.nodeTable[receiver]? with
  | none => exact nofun
  | some node =>
    dsimp only
    generalize (if node.kind.isRecord then
      catalogue.lookupMember (fun node => node.kind.isCallable) member receiver else []) = found
    split
    · exact nofun
    · rename_i some
      exact fun same => narrowed_ne_nil (by simpa using some) (Callees.known.inj same)

/-- The rules for a call through a receiver always give an answer. -/
theorem isSome_receiverCallees : (catalogue.receiverCallees place call).IsSome := by
  have unknown : ∀ spelling, (Callees.unknown spelling).IsSome := fun _ => nofun
  unfold receiverCallees
  dsimp only
  split
  · exact unknown _
  · exact unknown _
  · split
    · exact isSome_memberCallees _ _ _
    · exact unknown _
  · split
    · exact unknown _
    · split
      · exact unknown _
      · split
        · exact unknown _
        · exact isSome_memberCallees _ _ _

/-- Only the construction of an object can have nothing to be linked to: a template parameter
or a builtin type. -/
theorem isSome_callees (style : call.style ≠ .construct) :
    (catalogue.callees place call).IsSome := by
  unfold callees
  split
  · exact isSome_plainCallees
  · rename_i constructs
    exact absurd constructs style
  · exact isSome_receiverCallees

end Some

end Catalogue

namespace Linking.Grows

variable {bonds : List Bond} {before after : Linking} {place : CallPlace} {call : Call}
  (grows : before.Grows bonds after) (start : before.catalogue.Housed [])

section Nodes

include grows start

/-- A node that was there is stored as before. -/
theorem nodeTable_eq {id : Nat} (there : before.catalogue.HasNode id) :
    after.catalogue.graph.nodeTable[id]? = before.catalogue.graph.nodeTable[id]? := by
  obtain ⟨node, found⟩ := Graph.isSome_key?_iff.mp there
  rw [found, grows.nodes_kept start found]

/-- A node that was there has the kind that it had. -/
theorem kind?_eq {id : Nat} (there : before.catalogue.HasNode id) :
    after.catalogue.kind? id = before.catalogue.kind? id := by
  rw [Catalogue.kind?, grows.nodeTable_eq start there, Catalogue.kind?]

/-- What was a record is one, and nothing else became one. -/
theorem isRecord_eq {id : Nat} (there : before.catalogue.HasNode id) :
    after.catalogue.isRecord id = before.catalogue.isRecord id := by
  rw [Catalogue.isRecord, grows.kind?_eq start there, Catalogue.isRecord]

/-- A node that was there takes as many arguments as before. -/
theorem takes_eq {count id : Nat} (there : before.catalogue.HasNode id) :
    after.catalogue.takes count id = before.catalogue.takes count id := by
  rw [Catalogue.takes, grows.nodeTable_eq start there, Catalogue.takes]

/-- Candidates are narrowed to the same. -/
theorem narrowed_eq {count : Nat} {candidates : List Nat}
    (there : ∀ id ∈ candidates, before.catalogue.HasNode id) :
    after.catalogue.narrowed count candidates = before.catalogue.narrowed count candidates := by
  have fitting : candidates.filter (after.catalogue.takes count) =
      candidates.filter (before.catalogue.takes count) :=
    List.filter_congr fun id member => grows.takes_eq start (there id member)
  rw [Catalogue.narrowed, fitting, Catalogue.narrowed]

/-- The construction of a record calls the same. -/
theorem constructorsOf_eq (count record : Nat) :
    after.catalogue.constructorsOf count record =
      before.catalogue.constructorsOf count record := by
  have there : ∀ id ∈ before.catalogue.graph.children record, before.catalogue.HasNode id :=
    fun id member => Catalogue.hasNode_of_mem_children start.sound member
  have constructors : (after.catalogue.graph.children record).filter
        (fun id => after.catalogue.kind? id = some .constructor) =
      (before.catalogue.graph.children record).filter
        (fun id => before.catalogue.kind? id = some .constructor) := by
    rw [grows.children_eq start]
    exact List.filter_congr fun id member => by rw [grows.kind?_eq start (there id member)]
  unfold Catalogue.constructorsOf
  dsimp only
  rw [constructors, grows.narrowed_eq start fun id member =>
    there id (List.mem_filter.mp member).1]

end Nodes

variable (quiet : ∀ bond ∈ bonds, bond.leads = false)

include grows start quiet

section Place

variable (there : before.catalogue.HasNode place.scope)

include there

/-- A name still means the type that it meant at the place. -/
theorem typeAt?_eq (name : String) :
    after.catalogue.typeAt? place name = before.catalogue.typeAt? place name := by
  unfold Catalogue.typeAt?
  rw [grows.resolveFrom_eq start quiet there]
  refine Option.map_congr fun id member => ?_
  exact grows.dealias_eq start quiet
    (Catalogue.accepts_of_mem_resolveFrom (List.mem_of_mem_head? member)).hasNode

/-- A field of the enclosing record still has the type that it had. -/
theorem fieldType?_eq (name : String) :
    after.catalogue.fieldType? place name = before.catalogue.fieldType? place name := by
  unfold Catalogue.fieldType?
  rw [grows.resolveFrom_eq start quiet there]
  refine Option.bind_congr fun id member => ?_
  rw [grows.nodeTable_eq start
    (Catalogue.accepts_of_mem_resolveFrom (List.mem_of_mem_head? member)).hasNode]

/-- A variable still has the type that it had. -/
theorem variableType?_eq (name : String) :
    after.catalogue.variableType? place name = before.catalogue.variableType? place name := by
  rw [Catalogue.variableType?, grows.fieldType?_eq start quiet there, Catalogue.variableType?]

/-- A plain call still means what it meant. -/
theorem plainCallees_eq :
    after.catalogue.plainCallees place call = before.catalogue.plainCallees place call := by
  have candidates := fun id => @Catalogue.accepts_of_mem_resolveFrom before.catalogue
    (fun node => node.kind.isCallable || node.kind.isType) place.viewpoint
    (Spelling.withoutArguments call.callee) place.scope id
  unfold Catalogue.plainCallees
  dsimp only
  rw [grows.resolveFrom_eq start quiet there]
  generalize before.catalogue.resolveFrom place.viewpoint
    (fun node => node.kind.isCallable || node.kind.isType)
    (Spelling.withoutArguments call.callee) place.scope = found at candidates ⊢
  have types : found.find? after.catalogue.isType = found.find? before.catalogue.isType := by
    rw [← List.head?_filter, ← List.head?_filter]
    refine congrArg List.head? (List.filter_congr fun id member => ?_)
    rw [Catalogue.isType, grows.kind?_eq start (candidates id member).hasNode, Catalogue.isType]
  rw [types, grows.narrowed_eq start fun id member => (candidates id member).hasNode]
  cases first : found.find? before.catalogue.isType with
  | none => rfl
  | some type =>
    have typeThere := (candidates type (List.mem_of_find?_eq_some first)).hasNode
    dsimp only
    rw [grows.dealias_eq start quiet typeThere, grows.constructorsOf_eq start,
      grows.isRecord_eq start (Catalogue.hasNode_dealias start.sound typeThere)]

/-- A construction still calls what it called. -/
theorem constructionCallees_eq : after.catalogue.constructionCallees place call =
    before.catalogue.constructionCallees place call := by
  unfold Catalogue.constructionCallees
  cases Spelling.baseName? call.callee with
  | none => rfl
  | some name =>
    dsimp only
    rw [grows.typeAt?_eq start quiet there]
    cases found : before.catalogue.typeAt? place name with
    | none => rfl
    | some target =>
      have targetThere := Catalogue.hasNode_of_typeAt? start.sound found
      dsimp only
      rw [grows.isRecord_eq start targetThere, grows.constructorsOf_eq start,
        grows.kind?_eq start targetThere]

end Place

/-- A call of a member still means what it meant. -/
theorem memberCallees_eq {count : Nat} {member : String} {receiver : Nat}
    (there : before.catalogue.HasNode receiver) :
    after.catalogue.memberCallees count member receiver =
      before.catalogue.memberCallees count member receiver := by
  have candidates := fun id => @Catalogue.accepts_of_mem_lookupMember before.catalogue
    (fun node => node.kind.isCallable) member receiver id
  unfold Catalogue.memberCallees
  rw [grows.nodeTable_eq start there, grows.lookupMember_eq start quiet there]
  cases before.catalogue.graph.nodeTable[receiver]? with
  | none => rfl
  | some node =>
    dsimp only
    rw [grows.narrowed_eq start]
    intro id listed
    split at listed
    · exact (candidates id listed).hasNode
    · cases listed

/-- A call through a receiver still means what it meant. -/
theorem receiverCallees_eq (there : before.catalogue.HasNode place.scope) :
    after.catalogue.receiverCallees place call =
      before.catalogue.receiverCallees place call := by
  unfold Catalogue.receiverCallees
  cases call.receiver with
  | absent => rfl
  | expression => rfl
  | self =>
    dsimp only
    rw [grows.isRecord_eq start there, grows.memberCallees_eq start quiet there]
  | named variableName =>
    dsimp only
    rw [grows.variableType?_eq start quiet there]
    cases (before.catalogue.variableType? place variableName).bind Spelling.baseName? with
    | none => rfl
    | some type =>
      dsimp only
      rw [grows.typeAt?_eq start quiet there]
      cases found : before.catalogue.typeAt? place type with
      | none => rfl
      | some receiver =>
        dsimp only
        rw [grows.memberCallees_eq start quiet (Catalogue.hasNode_of_typeAt? start.sound found)]

/-- A call means the same. -/
theorem callees_eq (there : before.catalogue.HasNode place.scope) :
    after.catalogue.callees place call = before.catalogue.callees place call := by
  unfold Catalogue.callees
  rw [grows.plainCallees_eq start quiet there, grows.constructionCallees_eq start quiet there,
    grows.receiverCallees_eq start quiet there]

/-- The calls of a body stand in the same place. -/
theorem placeOf_eq {viewpoint : Viewpoint} {caller : Nat} {parameters : List Parameter}
    {body : Body} (there : before.catalogue.HasNode caller) :
    after.catalogue.placeOf viewpoint caller parameters body =
      before.catalogue.placeOf viewpoint caller parameters body := by
  rw [Catalogue.placeOf, grows.scopeOf_eq start, grows.templateParameters_eq start quiet there,
    Catalogue.placeOf]

/-- A call means the same nodes, once an unknown name has its stand-in. -/
theorem targets_iff (there : before.catalogue.HasNode place.scope)
    (standIn : ∀ spelling, before.catalogue.callees place call = .unknown spelling →
      ∃ id, before.catalogue.graph.key? id = some (.placeholder spelling)) {target : Nat} :
    after.catalogue.Targets place call target ↔ before.catalogue.Targets place call target := by
  unfold Catalogue.Targets
  rw [grows.callees_eq start quiet there]
  generalize before.catalogue.callees place call = callees at standIn
  constructor
  · rintro (member | @⟨spelling, _, carried⟩)
    · exact .known member
    · obtain ⟨id, known⟩ := standIn spelling rfl
      have kept := grows.keys_kept start known
      obtain rfl := (grows.housed start).sound.id_eq_of_key? kept carried
      exact .unknown known
  · rintro (member | carried)
    · exact .known member
    · exact .unknown (grows.keys_kept start carried)

end Linking.Grows

end DeclGraph
