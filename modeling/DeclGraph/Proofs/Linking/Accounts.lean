import DeclGraph.Proofs.Linking.CallSites
import DeclGraph.Proofs.Linking.FieldTypes
import DeclGraph.Proofs.Linking.Overloads
import DeclGraph.Proofs.Linking.Overrides

/-!
# Accounts of what is unresolved

The list of what is unresolved and the stand-ins of the graph tell the same. For every entry the
referring node is related to the stand-in of the name, and every stand-in is there for an entry
or for an alias that is spelled without naming anything. Each step of the linking keeps this
account.
-/

namespace DeclGraph

/-- The relation by which a node is linked to what is looked up for a purpose. -/
def LookupPurpose.relation : LookupPurpose → Relation
  | .base => .inherits
  | .call => .calls
  | .aliasTarget | .fieldType | .parameterType | .returnType | .localType => .usesType

/-- The graph shows what is unresolved: the node that refers is there and is related to the
stand-in of the name. -/
def Unresolved.ShownIn (entry : Unresolved) (graph : Graph) : Prop :=
  graph.nodeTable[entry.referrer.id]? = some entry.referrer ∧
    ∃ id, graph.key? id = some (.placeholder entry.spelling) ∧
      graph.Related entry.referrer.id entry.purpose.relation id

/-- A node is what an alias stands for that is spelled without naming anything. -/
def Catalogue.StandsForUnnamed (catalogue : Catalogue) (references : List SeenReference)
    (id : Nat) : Prop :=
  ∃ viewpoint owner spelling node, (viewpoint, .aliasTarget owner spelling) ∈ references ∧
    Spelling.references spelling = [] ∧ catalogue.nodeByKey? owner = some node ∧
      catalogue.kind? node = some .typeAlias ∧ catalogue.graph.UsedAs node "alias" id

/-- The family of aliases has one kind. -/
theorem EntityKind.eq_typeAlias {kind : EntityKind} (family : kind.family = .typeAlias) :
    kind = .typeAlias := by
  cases kind <;> simp_all [EntityKind.family]

/-- What is no alias stands for itself. -/
theorem Catalogue.dealias_of_other {catalogue : Catalogue} {id : Nat}
    (other : catalogue.kind? id ≠ some .typeAlias) : catalogue.dealias id = id := by
  unfold dealias
  cases catalogue.graph.nodeCount with
  | zero => rfl
  | succ steps => simp [followAliases, other]

/-- A stand-in that was not there before is the one that was given. -/
theorem Catalogue.kind?_withStandIn {catalogue : Catalogue} {spelling : String} {id : Nat}
    (standIn : (catalogue.withStandIn spelling).kind? id = some .placeholder) :
    catalogue.kind? id = some .placeholder ∨
      (catalogue.withStandIn spelling).graph.key? id = some (.placeholder spelling) := by
  cases known : catalogue.graph.nodeByKey? (.placeholder spelling) with
  | some other =>
    rw [withStandIn_of_known known] at standIn
    exact .inl standIn
  | none =>
    rw [withStandIn_of_fresh known] at standIn ⊢
    by_cases new : catalogue.graph.nextNode = id
    · exact .inr ((catalogue.graph.key?_addNode _ _ _ _).trans (if_pos new))
    · rw [kind?, nodeTable_withPlaceholder, if_neg new] at standIn
      exact .inl standIn

namespace Linking

variable {bonds : List Bond} {before middle after : Linking} {references : List SeenReference}

/-- The list of what is unresolved accounts for the stand-ins, and the graph for the list. -/
structure Accounted (references : List SeenReference) (linking : Linking) : Prop where
  entries : ∀ entry ∈ linking.unresolved, entry.ShownIn linking.catalogue.graph
  standIns : ∀ {id : Nat}, linking.catalogue.kind? id = some .placeholder →
    (∃ entry ∈ linking.unresolved,
      linking.catalogue.graph.key? id = some (.placeholder entry.spelling)) ∨
    linking.catalogue.StandsForUnnamed references id

section Kept

/-- What was related stays so while a catalogue grows. -/
theorem Grows.related_kept (grows : before.Grows bonds after) (start : before.catalogue.Housed [])
    {source target : Nat} {relation : Relation}
    (related : before.catalogue.graph.Related source relation target) :
    after.catalogue.graph.Related source relation target := by
  induction grows with
  | refl => exact related
  | edge sofar _ _ further => exact (sofar.housed start).sound.related_withEdge.mpr (.inl further)
  | standIn _ _ further => exact further
  | note _ _ further => exact further

variable (grows : before.Grows bonds after) (start : before.catalogue.Housed [])

include grows start

/-- An entry that showed where a name failed still does when the catalogue has grown. -/
theorem Grows.shownIn {entry : Unresolved} (shown : entry.ShownIn before.catalogue.graph) :
    entry.ShownIn after.catalogue.graph := by
  obtain ⟨found, id, carried, related⟩ := shown
  exact ⟨grows.nodes_kept start found, id, grows.keys_kept start carried,
    grows.related_kept start related⟩

/-- A node keeps its kind while a catalogue grows. -/
theorem Grows.kind?_kept {id : Nat} {kind : EntityKind}
    (held : before.catalogue.kind? id = some kind) : after.catalogue.kind? id = some kind := by
  obtain ⟨node, found, rfl⟩ := Option.map_eq_some_iff.mp held
  rw [Catalogue.kind?, grows.nodes_kept start found]
  rfl

/-- A placeholder goes on standing for a name nobody declared. -/
theorem Grows.standsForUnnamed {id : Nat}
    (stands : before.catalogue.StandsForUnnamed references id) :
    after.catalogue.StandsForUnnamed references id := by
  obtain ⟨viewpoint, owner, spelling, node, waits, nothing, known, isAlias, used⟩ := stands
  exact ⟨viewpoint, owner, spelling, node, waits, nothing, grows.nodeByKey?_kept start known,
    grows.kind?_kept start isAlias, grows.usedAs_kept start used⟩

/-- A stand-in that is accounted for stays so. -/
theorem Accounted.standIn_kept (accounted : Accounted references before)
    (longer : before.unresolved ⊆ after.unresolved) {id : Nat}
    (standIn : before.catalogue.kind? id = some .placeholder) :
    (∃ entry ∈ after.unresolved,
      after.catalogue.graph.key? id = some (.placeholder entry.spelling)) ∨
    after.catalogue.StandsForUnnamed references id := by
  refine (accounted.standIns standIn).imp ?_ (grows.standsForUnnamed start)
  rintro ⟨entry, listed, carried⟩
  exact ⟨entry, longer listed, grows.keys_kept start carried⟩

end Kept

/-- Edges alone keep the account. -/
theorem Accounted.kept (accounted : Accounted references before) (grows : before.Grows bonds after)
    (start : before.catalogue.Housed []) (same : before.SameNotes after) :
    Accounted references after where
  entries := by
    intro entry listed
    rw [same.unresolved] at listed
    exact grows.shownIn start (accounted.entries entry listed)
  standIns := by
    intro id standIn
    rw [Catalogue.kind?, same.nodeTable] at standIn
    exact accounted.standIn_kept grows start (same.unresolved ▸ List.Subset.refl _) standIn

/-- An edge that a bond allows leaves everything accounted for. -/
theorem Accounted.withEdge (accounted : Accounted references before)
    (start : before.catalogue.Housed []) {bond : Bond} {key : EdgeKey} {attributes : Attributes}
    (joins : bond.Joins before.catalogue key attributes) :
    Accounted references (before.withEdge key attributes) :=
  accounted.kept (Grows.edge .refl List.mem_cons_self joins : before.Grows [bond] _) start
    (sameNotes_withEdge before key attributes)

/-- A name that is noted is accounted for once its edge is there. -/
theorem Accounted.noting_withEdge (accounted : Accounted references before)
    (start : before.catalogue.Housed []) {entry : Unresolved} {bond : Bond} {target : Nat}
    {attributes : Attributes}
    (found : before.catalogue.graph.nodeTable[entry.referrer.id]? = some entry.referrer)
    (carried : (before.noting entry).catalogue.graph.key? target =
      some (.placeholder entry.spelling))
    (joins : bond.Joins (before.noting entry).catalogue
      ⟨entry.referrer.id, target, entry.purpose.relation⟩ attributes) :
    Accounted references ((before.noting entry).withEdge
      ⟨entry.referrer.id, target, entry.purpose.relation⟩ attributes) := by
  have toNoting := grows_noting [bond] before entry
  have housedNoting := toNoting.housed start
  have edge : (before.noting entry).Grows [bond] ((before.noting entry).withEdge _ attributes) :=
    .edge .refl List.mem_cons_self joins
  have grows := toNoting.trans edge
  have sameNotes := sameNotes_withEdge (before.noting entry)
    ⟨entry.referrer.id, target, entry.purpose.relation⟩ attributes
  constructor
  · intro other listed
    rcases List.mem_append.mp listed with old | new
    · exact grows.shownIn start (accounted.entries other old)
    · obtain rfl := List.mem_singleton.mp new
      exact ⟨grows.nodes_kept start found, target, edge.keys_kept housedNoting carried,
        housedNoting.sound.related_withEdge.mpr (.inr rfl)⟩
  · intro id standIn
    rw [Catalogue.kind?, sameNotes.nodeTable] at standIn
    rcases Catalogue.kind?_withStandIn standIn with old | new
    · exact accounted.standIn_kept grows start (List.subset_append_left _ _) old
    · exact .inl ⟨entry, List.mem_append_right _ List.mem_cons_self,
        edge.keys_kept housedNoting new⟩

/-- Once the referring node is linked to what was looked up for it, the account is kept. What is
only a stand-in has to be linked itself, as the purpose has it. -/
theorem Looks.accounted {viewpoint : Viewpoint} {referrer id : Nat} {purpose : LookupPurpose}
    {name : String} (looks : Looks viewpoint referrer purpose name before (some id) middle)
    (accounted : Accounted references before) (start : before.catalogue.Housed []) {bond : Bond}
    {key : EdgeKey} {attributes : Attributes}
    (joins : bond.Joins middle.catalogue key attributes)
    (ends : middle.catalogue.graph.key? id = some (.placeholder name) →
      key = ⟨referrer, id, purpose.relation⟩) :
    Accounted references (middle.withEdge key attributes) := by
  cases looks with
  | found => exact accounted.withEdge start joins
  | @noted _ node _ nodeFound carried =>
    obtain rfl := start.sound.node_id nodeFound
    have same := ends carried
    subst same
    exact accounted.noting_withEdge start nodeFound carried joins

/-- Linking a data member to one type keeps the account. -/
theorem LinksField.accounted {viewpoint : Viewpoint} {field : Node} {name : String}
    (links : LinksField viewpoint field name before after) (start : before.catalogue.Housed [])
    (found : before.catalogue.graph.nodeTable[field.id]? = some field)
    (accounted : Accounted references before) : Accounted references after := by
  cases links with
  | hidden => exact accounted
  | linked looks =>
    have grows := looks.grows [.use "field"]
    have housedMiddle := grows.housed start
    have foundMiddle := grows.nodes_kept start found
    have usable := looks.isUsable start
    have joins := joins_useOfField foundMiddle usable
    have used := looks.accounted accounted start joins fun _ => rfl
    have use := grows.trans (.edge .refl List.mem_cons_self joins)
    exact used.withEdge (use.housed start) (joins_field housedMiddle foundMiddle usable)

/-- Relating two nodes as a bond allows leaves everything accounted for. -/
theorem succeeds_relate_accounted (accounted : Accounted references before)
    (housed : before.catalogue.Housed []) {bond : Bond} {source target : Nat}
    {relation : Relation} {attributes : Attributes} (among : bond ∈ bonds)
    (joins : bond.Joins before.catalogue ⟨source, target, relation⟩ attributes) :
    Succeeds (relate source target relation attributes) before fun _ after =>
      before.Grows bonds after ∧ Accounted references after := by
  refine (succeeds_relate_eq joins.source_there joins.target_there).weaken ?_
  rintro _ after rfl
  exact ⟨.edge .refl among joins, accounted.withEdge housed joins⟩

/-- Steps for the items of a list keep the account when each of them does. -/
theorem succeeds_forM_accounted {β : Type} {items : List β} {step : β → Step Unit}
    (accounted : Accounted references before)
    (each : ∀ item ∈ items, ∀ linking, before.Grows bonds linking →
      Accounted references linking → Succeeds (step item) linking fun _ after =>
        linking.Grows bonds after ∧ Accounted references after) :
    Succeeds (items.forM step) before fun _ after =>
      before.Grows bonds after ∧ Accounted references after := by
  refine succeeds_forM_invariant ?_ ⟨.refl, accounted⟩
  rintro item member linking ⟨sofar, held⟩
  refine (each item member linking sofar held).weaken ?_
  rintro _ after ⟨more, next⟩
  exact ⟨sofar.trans more, next⟩

section Types

variable {viewpoint : Viewpoint} {referrer : Nat} {purpose : LookupPurpose} {role name : String}
  (housed : before.catalogue.Housed []) (there : before.catalogue.HasNode referrer)
  (accounted : Accounted references before)

include housed there accounted

/-- Linking one name to a type leaves everything accounted for. -/
theorem succeeds_linkName_accounted (among : .use role ∈ bonds)
    (uses : purpose.relation = .usesType) :
    Succeeds (linkName viewpoint referrer purpose role name) before fun _ after =>
      before.Grows bonds after ∧ Accounted references after := by
  refine succeeds_bind ((succeeds_looks housed there).weaken ?_)
  intro meant middle looks
  have grows := looks.grows bonds
  cases meant with
  | none =>
    cases looks
    exact succeeds_pure ⟨.refl, accounted⟩
  | some target =>
    have usable := looks.isUsable housed
    have joins := Bond.joins_use role (grows.hasNode housed there) usable
    refine (succeeds_relate_eq joins.source_there joins.target_there).weaken ?_
    rintro _ after rfl
    exact ⟨grows.trans (.edge .refl among joins),
      looks.accounted accounted housed joins fun _ => by rw [uses]⟩

/-- Linking a list of names leaves everything accounted for, by one name after the other. -/
theorem succeeds_linkNames_accounted {names : List String} (among : .use role ∈ bonds)
    (uses : purpose.relation = .usesType) :
    Succeeds (names.forM (linkName viewpoint referrer purpose role)) before fun _ after =>
      before.Grows bonds after ∧ Accounted references after :=
  succeeds_forM_accounted accounted fun _ _ _ sofar held =>
    succeeds_linkName_accounted (sofar.housed housed) (sofar.hasNode housed there) held among uses

/-- Linking what a field is made of leaves everything accounted for. -/
theorem succeeds_linkField_accounted {spelling : String} (amongUse : .use "field" ∈ bonds)
    (amongField : .field ∈ bonds) :
    Succeeds (linkField viewpoint spelling referrer) before fun _ after =>
      before.Grows bonds after ∧ Accounted references after := by
  obtain ⟨field, found⟩ := Graph.isSome_key?_iff.mp there
  obtain rfl := housed.sound.node_id found
  refine succeeds_forM_accounted accounted fun name _ linking sofar held => ?_
  have housedHere := sofar.housed housed
  have foundHere := sofar.nodes_kept housed found
  refine (succeeds_linkFieldName_links housedHere foundHere).weaken fun _ after links => ⟨?_, ?_⟩
  · exact links.grows housedHere foundHere amongUse amongField
  · exact links.accounted housedHere foundHere held

end Types

section Aliases

variable {viewpoint : Viewpoint} {key : EntityKey} {spelling : String} {owner : Nat}

/-- A stand-in for a spelling that names nothing is accounted for by the alias that is spelled
so. -/
theorem succeeds_linkAliasTarget_accounted (housed : before.catalogue.Housed [])
    (accounted : Accounted references before)
    (waits : (viewpoint, .aliasTarget key spelling) ∈ references)
    (known : before.catalogue.nodeByKey? key = some owner)
    (isAlias : before.catalogue.kind? owner = some .typeAlias) :
    Succeeds (linkAliasTarget viewpoint spelling owner) before fun _ after =>
      before.Grows aliasBonds after ∧ Accounted references after := by
  have amongAlias : Bond.use "alias" ∈ aliasBonds := by decide
  have amongArgument : Bond.use "template_argument" ∈ aliasBonds := by decide
  have there := hasNode_of_nodeByKey? housed.sound known
  unfold linkAliasTarget
  split
  · rename_i nothing
    refine succeeds_bind ((succeeds_standIn housed).weaken ?_)
    rintro target middle ⟨became, carried⟩
    have toMiddle : before.Grows aliasBonds middle :=
      became ▸ grows_withStandIn aliasBonds before (Spelling.canonical spelling)
    have housedMiddle := toMiddle.housed housed
    have joins := Bond.joins_use "alias" (toMiddle.hasNode housed there)
      (Catalogue.isUsable_of_placeholder housedMiddle.sound carried)
    refine (succeeds_relate_eq joins.source_there joins.target_there).weaken ?_
    rintro _ after rfl
    have edge : middle.Grows aliasBonds (middle.withEdge ⟨owner, target, .usesType⟩
        (roleAttributes "alias")) := .edge .refl amongAlias joins
    have grows := toMiddle.trans edge
    have notes : middle.unresolved = before.unresolved := by rw [became]
    refine ⟨grows, fun entry listed => ?_, fun {id} standIn => ?_⟩
    · exact grows.shownIn housed (accounted.entries entry (notes ▸ listed))
    · rw [Catalogue.kind?, (sameNotes_withEdge middle _ _).nodeTable] at standIn
      subst became
      rcases Catalogue.kind?_withStandIn standIn with old | new
      · exact accounted.standIn_kept grows housed (List.Subset.refl _) old
      · obtain rfl := housedMiddle.sound.id_eq_of_key? carried new
        exact .inr ⟨viewpoint, key, spelling, owner, waits, nothing,
          grows.nodeByKey?_kept housed known, grows.kind?_kept housed isAlias,
          housedMiddle.sound.usedAs_withEdge.mpr (.inr ⟨rfl, rfl, rfl⟩)⟩
  · refine succeeds_bind ((succeeds_linkName_accounted housed there accounted amongAlias
      rfl).weaken ?_)
    rintro _ middle ⟨grows, held⟩
    refine (succeeds_linkNames_accounted (grows.housed housed) (grows.hasNode housed there) held
      amongArgument rfl).weaken ?_
    rintro _ after ⟨more, next⟩
    exact ⟨grows.trans more, next⟩

end Aliases

/-- A base that means nothing known is no alias, and not the record itself, so its stand-in
becomes a base. -/
theorem succeeds_linkBase_accounted {viewpoint : Viewpoint} {base : Base} {derived : Nat}
    (housed : before.catalogue.Housed []) (accounted : Accounted references before)
    (there : before.catalogue.HasNode derived)
    (declared : before.catalogue.kind? derived ≠ some .placeholder) :
    Succeeds (linkBase viewpoint base derived) before fun _ after =>
      before.Grows [.inherits] after ∧ Accounted references after := by
  refine succeeds_bind ((succeeds_looks housed there).weaken ?_)
  intro meant middle looks
  have grows := looks.grows [.inherits]
  have housedMiddle := grows.housed housed
  cases meant with
  | none =>
    cases looks
    exact succeeds_pure ⟨.refl, accounted⟩
  | some found =>
    refine succeeds_bind (succeeds_get ?_)
    dsimp only
    split
    · rename_i apart
      have target := Catalogue.hasNode_dealias housedMiddle.sound (looks.isUsable housed).hasNode
      refine (succeeds_relate_eq (grows.hasNode housed there) target).weaken ?_
      rintro _ after rfl
      have joins := Bond.joins_inherits ((∅ : Attributes).insert AttributeName.inheritanceAccess
        (.text base.access.keyword)) (grows.hasNode housed there) target apart
      refine ⟨grows.trans (.edge .refl List.mem_cons_self joins),
        looks.accounted accounted housed joins fun carried => ?_⟩
      rw [Catalogue.dealias_of_other]
      · rfl
      · rw [Catalogue.kind?_of_placeholder housedMiddle.sound carried]
        exact nofun
    · rename_i same
      refine succeeds_pure ⟨grows, ?_⟩
      cases looks with
      | found => exact accounted
      | noted _ _ carried =>
        have standIn := Catalogue.kind?_of_placeholder housedMiddle.sound carried
        rw [Catalogue.dealias_of_other (by rw [standIn]; exact nofun)] at same
        obtain rfl := Classical.not_not.mp same
        obtain ⟨node, nodeFound⟩ := Graph.isSome_key?_iff.mp there
        have kind : before.catalogue.kind? found = some node.kind := by
          rw [Catalogue.kind?, nodeFound]
          rfl
        rw [grows.kind?_kept housed kind] at standIn
        exact absurd (kind.trans standIn) declared

/-- A call that means nothing known is accounted for by the edge to its stand-in. -/
theorem succeeds_linkCall_accounted {place : CallPlace} {caller : Nat} {call : Call}
    (housed : before.catalogue.Housed []) (accounted : Accounted references before)
    (there : before.catalogue.HasNode caller) :
    Succeeds (linkCall place caller call) before fun _ after =>
      before.Grows [.calls] after ∧ Accounted references after := by
  refine succeeds_bind (succeeds_get ?_)
  refine succeeds_bind ((succeeds_means housed there).weaken ?_)
  intro targets middle means
  have grows := means.grows [.calls]
  have allThere := means.hasNode housed
  have thereMiddle := grows.hasNode housed there
  cases means with
  | known =>
    refine (succeeds_relateCalls housed there allThere).weaken ?_
    rintro _ after ⟨more, added⟩
    exact ⟨more, accounted.kept more housed added.notes⟩
  | @noted spelling id node _ callerNode carried =>
    obtain rfl := housed.sound.node_id callerNode
    have joins := Bond.joins_calls (callAttributes (Int64.ofNat call.line)) thereMiddle
      (allThere id List.mem_cons_self)
    refine succeeds_bind ((succeeds_relate_eq joins.source_there joins.target_there).weaken ?_)
    rintro _ after rfl
    exact succeeds_pure ⟨grows.trans (.edge .refl List.mem_cons_self joins),
      accounted.noting_withEdge housed callerNode carried joins⟩

section Passes

variable (housed : before.catalogue.Housed []) (accounted : Accounted references before)

include housed accounted

section Owned

variable (keeps : before.catalogue.MovesWithinFamilies) (owned : AllOwned references)

include keeps owned

/-- The pass over aliases leaves everything accounted for. -/
theorem succeeds_linkAliases_accounted :
    Succeeds (linkAliases references) before fun _ after =>
      before.Grows aliasBonds after ∧ Accounted references after := by
  refine succeeds_forM_accounted accounted fun item member linking sofar held => ?_
  obtain ⟨viewpoint, reference⟩ := item
  cases reference with
  | aliasTarget key spelling =>
    refine succeeds_forEntity_cases (fun _ => ⟨.refl, held⟩) fun node known => ?_
    have housedHere := sofar.housed housed
    obtain ⟨kind, isKind, family⟩ :=
      Catalogue.kind?_of_nodeByKey? housedHere.sound (sofar.movesWithinFamilies keeps) known
    obtain rfl := EntityKind.eq_typeAlias (family.trans (owned _ member))
    exact succeeds_linkAliasTarget_accounted housedHere held member known isKind
  | _ => exact succeeds_pure ⟨.refl, held⟩

/-- The pass over base classes leaves everything accounted for. -/
theorem succeeds_linkBases_accounted :
    Succeeds (linkBases references) before fun _ after =>
      before.Grows [.inherits] after ∧ Accounted references after := by
  refine succeeds_forM_accounted accounted fun item member linking sofar held => ?_
  obtain ⟨viewpoint, reference⟩ := item
  cases reference with
  | base key base =>
    refine succeeds_forEntity_cases (fun _ => ⟨.refl, held⟩) fun node known => ?_
    have housedHere := sofar.housed housed
    obtain ⟨kind, isKind, family⟩ :=
      Catalogue.kind?_of_nodeByKey? housedHere.sound (sofar.movesWithinFamilies keeps) known
    refine succeeds_linkBase_accounted housedHere held
      (hasNode_of_nodeByKey? housedHere.sound known) fun standIn => ?_
    obtain rfl := Option.some.inj (isKind.symm.trans standIn)
    exact Reference.ownerFamily_ne_placeholder _ (family.trans (owned _ member)).symm
  | _ => exact succeeds_pure ⟨.refl, held⟩

end Owned

/-- The pass over fields leaves everything accounted for. -/
theorem succeeds_linkFields_accounted :
    Succeeds (linkFields references) before fun _ after =>
      before.Grows fieldBonds after ∧ Accounted references after := by
  have amongUse : Bond.use "field" ∈ fieldBonds := by decide
  have amongField : Bond.field ∈ fieldBonds := by decide
  refine succeeds_forM_accounted accounted fun item member linking sofar held => ?_
  have housedHere := sofar.housed housed
  obtain ⟨viewpoint, reference⟩ := item
  cases reference with
  | fieldType key spelling =>
    refine succeeds_forEntity_cases (fun _ => ⟨.refl, held⟩) fun node known => ?_
    exact succeeds_linkField_accounted housedHere
      (hasNode_of_nodeByKey? housedHere.sound known) held amongUse amongField
  | _ => exact succeeds_pure ⟨.refl, held⟩

/-- The pass over signatures leaves everything accounted for. -/
theorem succeeds_linkSignatures_accounted :
    Succeeds (linkSignatures references) before fun _ after =>
      before.Grows signatureBonds after ∧ Accounted references after := by
  have amongParameter : Bond.use "parameter" ∈ signatureBonds := by decide
  have amongReturn : Bond.use "return" ∈ signatureBonds := by decide
  refine succeeds_forM_accounted accounted fun item member linking sofar held => ?_
  have housedHere := sofar.housed housed
  obtain ⟨viewpoint, reference⟩ := item
  cases reference with
  | parameterType key spelling =>
    refine succeeds_forEntity_cases (fun _ => ⟨.refl, held⟩) fun node known => ?_
    exact succeeds_linkNames_accounted housedHere
      (hasNode_of_nodeByKey? housedHere.sound known) held amongParameter rfl
  | returnType key spelling =>
    refine succeeds_forEntity_cases (fun _ => ⟨.refl, held⟩) fun node known => ?_
    exact succeeds_linkNames_accounted housedHere
      (hasNode_of_nodeByKey? housedHere.sound known) held amongReturn rfl
  | _ => exact succeeds_pure ⟨.refl, held⟩

/-- The pass over local variables leaves everything accounted for. -/
theorem succeeds_linkLocals_accounted :
    Succeeds (linkLocals references) before fun _ after =>
      before.Grows localBonds after ∧ Accounted references after := by
  have amongLocal : Bond.use "local" ∈ localBonds := by decide
  refine succeeds_forM_accounted accounted fun item member linking sofar held => ?_
  have housedHere := sofar.housed housed
  obtain ⟨viewpoint, reference⟩ := item
  cases reference with
  | localType key spelling =>
    refine succeeds_forEntity_cases (fun _ => ⟨.refl, held⟩) fun node known => ?_
    exact succeeds_linkNames_accounted housedHere
      (hasNode_of_nodeByKey? housedHere.sound known) held amongLocal rfl
  | _ => exact succeeds_pure ⟨.refl, held⟩

/-- The pass over calls leaves everything accounted for. -/
theorem succeeds_linkCalls_accounted :
    Succeeds (linkCalls references) before fun _ after =>
      before.Grows [.calls] after ∧ Accounted references after := by
  refine succeeds_forM_accounted accounted fun item member linking sofar held => ?_
  have housedHere := sofar.housed housed
  obtain ⟨viewpoint, reference⟩ := item
  cases reference with
  | body key parameters body =>
    refine succeeds_forEntity_cases (fun _ => ⟨.refl, held⟩) fun caller known => ?_
    have there := hasNode_of_nodeByKey? housedHere.sound known
    refine succeeds_bind (succeeds_get ?_)
    exact succeeds_forM_accounted held fun _ _ _ more heldToo =>
      succeeds_linkCall_accounted (more.housed housedHere) heldToo (more.hasNode housedHere there)
  | _ => exact succeeds_pure ⟨.refl, held⟩

/-- The pass over overloads leaves everything accounted for. -/
theorem succeeds_linkOverloads_accounted :
    Succeeds linkOverloads before fun _ after =>
      before.Grows [.overloads] after ∧ Accounted references after := by
  refine succeeds_bind (succeeds_get ?_)
  refine succeeds_forM_accounted accounted fun pair member linking sofar held => ?_
  obtain ⟨_, one, other, oneFound, otherFound, _⟩ :=
    (Catalogue.mem_overloadPairs housed.sound).mp member
  have there : ∀ {id : Nat} {node : Node}, before.catalogue.graph.nodeTable[id]? = some node →
      linking.catalogue.HasNode id := fun found =>
    sofar.hasNode housed (Graph.isSome_key?_iff.mpr ⟨_, found⟩)
  exact succeeds_relate_accounted held (sofar.housed housed) List.mem_cons_self
    (Bond.joins_bare rfl (there oneFound) (there otherFound))

/-- The pass over overrides leaves everything accounted for. -/
theorem succeeds_linkOverrides_accounted :
    Succeeds linkOverrides before fun _ after =>
      before.Grows [.overrides] after ∧ Accounted references after := by
  refine succeeds_bind (succeeds_get ?_)
  refine succeeds_forM_accounted accounted fun entry member linking sofar held => ?_
  obtain ⟨method, overridden⟩ := entry
  obtain ⟨methodThere, allThere⟩ := Catalogue.hasNode_overrideTable housed.sound member
  refine succeeds_forM_accounted held fun target listed next more heldToo => ?_
  have grows := sofar.trans more
  exact succeeds_relate_accounted heldToo (grows.housed housed) List.mem_cons_self
    (Bond.joins_bare rfl (grows.hasNode housed methodThere)
      (grows.hasNode housed (allThere target listed)))

end Passes

end Linking

end DeclGraph
