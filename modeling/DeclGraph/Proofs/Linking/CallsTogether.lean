import DeclGraph.Linking.Calls
import DeclGraph.Proofs.Linking.Together

/-!
# Calls side by side

In catalogues that correspond, a call means counterparts. Several callees are found in any order,
since overloads can be found in any order, but every one of them is found on both sides.
-/

namespace DeclGraph

namespace Catalogue

/-- A call means counterparts, or the same name that means nothing known. -/
inductive CalleesAlike (first second : Catalogue) : Callees → Callees → Prop where
  | known {nodes nodesToo : List Nat}
    (same : SameListed (first.graph.Counterparts second.graph) nodes nodesToo) :
    CalleesAlike first second (.known nodes) (.known nodesToo)
  | unknown (spelling : String) : CalleesAlike first second (.unknown spelling) (.unknown spelling)

namespace Corresponds

variable {first second : Catalogue} (corresponds : first.Corresponds second)
  {one other : Nat} {found foundToo : List Nat}

include corresponds

/-- Counterparts take equally many arguments. -/
theorem takes_eq (count : Nat) (same : first.graph.Counterparts second.graph one other) :
    first.takes count one = second.takes count other := by
  obtain ⟨node, there⟩ := Graph.isSome_key?_iff.mp same.there.1
  rw [takes, takes, there, corresponds.node same there]

/-- A counterpart of a type is one. -/
theorem isType_eq (same : first.graph.Counterparts second.graph one other) :
    first.isType one = second.isType other := by
  rw [isType, isType, corresponds.kind?_eq same]

/-- As many candidates take the arguments on one side as on the other. -/
theorem narrowed (count : Nat)
    (alike : SameListed (first.graph.Counterparts second.graph) found foundToo) :
    SameListed (first.graph.Counterparts second.graph) (first.narrowed count found)
      (second.narrowed count foundToo) := by
  have fitting := alike.filter (fun held => corresponds.takes_eq count held)
  unfold Catalogue.narrowed
  simp only [List.isEmpty_iff, fitting.eq_nil_iff]
  split
  · exact alike
  · exact fitting

/-- Constructing counterparts calls counterparts. -/
theorem constructorsOf (count : Nat) (same : first.graph.Counterparts second.graph one other) :
    SameListed (first.graph.Counterparts second.graph) (first.constructorsOf count one)
      (second.constructorsOf count other) := by
  have constructors : SameListed (first.graph.Counterparts second.graph)
      ((first.graph.children one).filter fun id => first.kind? id = some .constructor)
      ((second.graph.children other).filter fun id => second.kind? id = some .constructor) :=
    (corresponds.children same).filter fun held => by rw [corresponds.kind?_eq held]
  unfold Catalogue.constructorsOf
  simp only [List.isEmpty_iff, constructors.eq_nil_iff]
  split
  · exact .single same
  · exact corresponds.narrowed count constructors

section Placed

variable {place : CallPlace} {scopeToo : Nat}
  (same : first.graph.Counterparts second.graph place.scope scopeToo)

include same

/-- A name means counterparts at places that correspond. -/
theorem typeAt? (name : String) : Option.Rel (first.graph.Counterparts second.graph)
    (first.typeAt? place name) (second.typeAt? { place with scope := scopeToo } name) := by
  have found := rel_head? (corresponds.resolveFrom (acceptAlike_of_kind EntityKind.isType)
    (orderedAlone_isType fun _ => id) same place.viewpoint name).forall₂_nodes
  unfold Catalogue.typeAt?
  dsimp only
  generalize List.head? _ = type at found ⊢
  generalize List.head? _ = typeToo at found ⊢
  cases found with
  | none => exact .none
  | some held => exact .some (corresponds.dealias held)

/-- The construction of counterparts calls counterparts. -/
theorem plainCallees (call : Call) : CalleesAlike first second (first.plainCallees place call)
    (second.plainCallees { place with scope := scopeToo } call) := by
  have alone : OrderedAlone (fun node => node.kind.isCallable || node.kind.isType)
      (!·.isCallable) := fun node _ ordered => by simpa using ordered
  have alike := corresponds.resolveFrom
    (acceptAlike_of_kind fun kind => kind.isCallable || kind.isType) alone same place.viewpoint
    (Spelling.withoutArguments call.callee)
  have marks : ∀ (catalogue : Catalogue) (id : Nat), catalogue.isType id →
      (catalogue.kind? id).any (!·.isCallable) := by
    intro catalogue id type
    rw [isType] at type
    cases kind : catalogue.kind? id with
    | none => simp [kind] at type
    | some kind =>
      rw [kind, Option.any_some] at type
      simpa using not_isCallable_of_isType type
  have type := alike.find? corresponds.isType_eq (marks first) (marks second)
  unfold Catalogue.plainCallees
  dsimp only
  simp only [List.isEmpty_iff, alike.eq_nil_iff]
  split
  · exact .unknown _
  · generalize List.find? _ _ = type at type ⊢
    generalize List.find? _ _ = typeToo at type ⊢
    cases type with
    | none => exact .known (corresponds.narrowed _ alike.toSameListed)
    | some held =>
      have target := corresponds.dealias held
      dsimp only
      rw [← corresponds.isRecord_eq target]
      split
      · exact .known (corresponds.constructorsOf _ target)
      · exact .known (.single target)

/-- A construction calls counterparts from places that correspond. -/
theorem constructionCallees (call : Call) :
    CalleesAlike first second (first.constructionCallees place call)
      (second.constructionCallees { place with scope := scopeToo } call) := by
  unfold Catalogue.constructionCallees
  cases Spelling.baseName? call.callee with
  | none => exact .known .nil
  | some name =>
    have type := corresponds.typeAt? same name
    dsimp only
    split
    · exact .known .nil
    · generalize first.typeAt? place name = target at type ⊢
      generalize second.typeAt? _ name = targetToo at type ⊢
      cases type with
      | none => exact .unknown _
      | some held =>
        dsimp only
        rw [← corresponds.isRecord_eq held, ← corresponds.kind?_eq held]
        split
        · exact .known (corresponds.constructorsOf _ held)
        · split
          · exact .known (.single held)
          · exact .unknown _

/-- A field has the same type, as it is written, on both sides. -/
theorem fieldType?_eq (name : String) :
    first.fieldType? place name = second.fieldType? { place with scope := scopeToo } name := by
  have alone : OrderedAlone (fun node => node.kind = .field) fun _ => true := by
    intro node field _
    rw [of_decide_eq_true field]
    rfl
  have found := rel_head? (corresponds.resolveFrom (acceptAlike_of_kind fun kind => kind = .field)
    alone same place.viewpoint name).forall₂_nodes
  unfold Catalogue.fieldType?
  dsimp only
  generalize List.head? _ = field at found ⊢
  generalize List.head? _ = fieldToo at found ⊢
  cases found with
  | none => rfl
  | some held =>
    obtain ⟨node, there⟩ := Graph.isSome_key?_iff.mp held.there.1
    simp [there, corresponds.node held there]

/-- A variable has the same type, as it is written, on both sides. -/
theorem variableType?_eq (name : String) :
    first.variableType? place name =
      second.variableType? { place with scope := scopeToo } name := by
  unfold Catalogue.variableType?
  rw [corresponds.fieldType?_eq same]

omit same in
/-- Members of counterparts mean counterparts. -/
theorem memberCallees (count : Nat) (member : String)
    (held : first.graph.Counterparts second.graph one other) :
    CalleesAlike first second (first.memberCallees count member one)
      (second.memberCallees count member other) := by
  obtain ⟨node, there⟩ := Graph.isSome_key?_iff.mp held.there.1
  have alone : OrderedAlone (fun node => node.kind.isCallable) fun _ => false := nofun
  have members := corresponds.lookupMember (acceptAlike_of_kind EntityKind.isCallable) alone held
    member
  unfold Catalogue.memberCallees
  rw [there, corresponds.node held there]
  dsimp only
  by_cases isRecord : node.kind.isRecord
  · simp only [isRecord, if_true, List.isEmpty_iff, members.eq_nil_iff]
    split
    · exact .unknown _
    · exact .known (corresponds.narrowed count members.toSameListed)
  · simp only [isRecord, Bool.false_eq_true, if_false, List.isEmpty_nil, if_true]
    exact .unknown _

/-- A call through a receiver means counterparts from places that correspond. -/
theorem receiverCallees (call : Call) :
    CalleesAlike first second (first.receiverCallees place call)
      (second.receiverCallees { place with scope := scopeToo } call) := by
  unfold Catalogue.receiverCallees
  cases call.receiver with
  | absent => exact .unknown _
  | expression => exact .unknown _
  | self =>
    dsimp only
    rw [← corresponds.isRecord_eq same]
    split
    · exact corresponds.memberCallees _ _ same
    · exact .unknown _
  | named variableName =>
    dsimp only
    rw [← corresponds.variableType?_eq same]
    cases (first.variableType? place variableName).bind Spelling.baseName? with
    | none => exact .unknown _
    | some name =>
      have type := corresponds.typeAt? same name
      dsimp only
      split
      · exact .unknown _
      · generalize first.typeAt? place name = receiver at type ⊢
        generalize second.typeAt? _ name = receiverToo at type ⊢
        cases type with
        | none => exact .unknown _
        | some held => exact corresponds.memberCallees _ _ held

/-- A call means counterparts in counterparts. -/
theorem callees (call : Call) : CalleesAlike first second (first.callees place call)
    (second.callees { place with scope := scopeToo } call) := by
  unfold Catalogue.callees
  cases call.style with
  | plain => exact corresponds.plainCallees same call
  | construct => exact corresponds.constructionCallees same call
  | member => exact corresponds.receiverCallees same call

end Placed

end Corresponds

end Catalogue

namespace Linking

variable {before beforeToo : Linking}
  (corresponds : before.catalogue.Corresponds beforeToo.catalogue) {caller callerToo : Nat}

include corresponds

/-- Linking one call proceeds alike on both sides. -/
theorem proceeds_linkCall {place : CallPlace} {scopeToo : Nat}
    (sameScope : before.catalogue.graph.Counterparts beforeToo.catalogue.graph place.scope scopeToo)
    (same : before.catalogue.graph.Counterparts beforeToo.catalogue.graph caller callerToo)
    (call : Call) :
    SucceedTogether (linkCall place caller call)
      (linkCall { place with scope := scopeToo } callerToo call) before beforeToo fun _ _ =>
        Proceeds before beforeToo := by
  have alike := corresponds.callees sameScope call
  unfold linkCall
  refine together_get ?_
  generalize before.catalogue.callees place call = callees at alike ⊢
  generalize beforeToo.catalogue.callees _ call = calleesToo at alike ⊢
  cases alike with
  | known nodes =>
    exact together_bind (together_pure
      (proceeds_relateTargets corresponds (by decide) (by decide) same nodes))
  | unknown spelling =>
    refine together_bind (together_bind ((proceeds_substitute corresponds place.viewpoint spelling
      .call same).weaken ?_))
    rintro standIn standInToo middle middleToo ⟨sofar, held⟩
    exact together_pure ((proceeds_relateTargets sofar.corresponds (by decide) (by decide)
      (sofar.keeps same) (.single held)).weaken sofar.trans)

/-- Linking the calls of one body proceeds alike on both sides. -/
theorem proceeds_linkBody (viewpoint : Viewpoint) (parameters : List Parameter) (body : Body)
    (same : before.catalogue.graph.Counterparts beforeToo.catalogue.graph caller callerToo) :
    SucceedTogether (linkBody viewpoint parameters body caller)
      (linkBody viewpoint parameters body callerToo) before beforeToo fun _ _ =>
        Proceeds before beforeToo := by
  unfold linkBody
  refine together_get ?_
  dsimp only
  rw [← corresponds.templateParameters same]
  refine proceeds_forM corresponds fun call _ middle middleToo sofar => ?_
  exact proceeds_linkCall sofar.corresponds (sofar.keeps (corresponds.scopeOf same))
    (sofar.keeps same) call

/-- The pass over calls proceeds alike on both sides. -/
theorem proceeds_linkCalls (references : List SeenReference) :
    SucceedTogether (linkCalls references) (linkCalls references) before beforeToo fun _ _ =>
      Proceeds before beforeToo := by
  refine proceeds_forM corresponds fun reference _ _ _ sofar => ?_
  obtain ⟨viewpoint, reference⟩ := reference
  cases reference with
  | body owner parameters body =>
    exact proceeds_forEntity sofar.corresponds fun held =>
      proceeds_linkBody sofar.corresponds viewpoint parameters body held
  | _ => exact together_pure (.refl sofar.corresponds)

end Linking

end DeclGraph
