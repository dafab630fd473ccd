import DeclGraph.Catalogue.Merge
import DeclGraph.Proofs.Catalogue.Housed

/-!
# Registering mentions

A mention changes the profile under its own key and creates implied scopes
around it where they are missing. It fails only if its kind is outside the
family of its key, and even then the catalogue stays housed.
-/

namespace DeclGraph

namespace Mention

/-- The profile of an entity that was mentioned once. -/
def firstProfile (mention : Mention) : Profile :=
  ⟨mention.kind, Catalogue.initialAttributes mention⟩

/-- What is known of an entity together with a further mention of it. -/
def joined (mention : Mention) (known : Profile) : Profile :=
  let existing : Node := ⟨0, mention.key, known.kind, known.attributes⟩
  let wins := incomingWins existing mention
  ⟨mergedKind existing mention wins,
    mergedAttributes known.attributes mention.attributes wins⟩

/-- The profile of an entity after a mention of it. -/
def profileAfter (mention : Mention) : Option Profile → Profile
  | none => mention.firstProfile
  | some known => mention.joined known

/-- The implied scopes that a mention can create. -/
def impliedAround (mention : Mention) (key : EntityKey) : Option Profile :=
  if mention.key.family ≠ .placeholder ∧ key.isScopeAround mention.key.name.segments.dropLast then
    some .implied
  else none

/-- A mention joins the profile of a node as it is merged into the node. -/
theorem joined_of_node {mention : Mention} {node : Node} (sameKey : node.key = mention.key) :
    mention.joined node.profile =
      ⟨mergedKind node mention (incomingWins node mention),
        mergedAttributes node.attributes mention.attributes (incomingWins node mention)⟩ := by
  obtain ⟨id, key, kind, attributes⟩ := node
  cases sameKey
  rfl

/-- A merged kind is that of the node or that of the mention. -/
theorem mergedKind_cases (existing : Node) (mention : Mention) (wins : Bool) :
    mergedKind existing mention wins = existing.kind ∨
      mergedKind existing mention wins = mention.kind := by
  unfold mergedKind
  cases existing.key.family <;> dsimp only
  case scope =>
    by_cases settles : (existing.attributes.isSet AttributeName.implied && !mention.implied) = true
    · simp [settles]
    · by_cases keeps : (mention.implied || !wins) = true <;> simp [settles, keeps]
  case callable =>
    by_cases plain : mention.kind = .freeFunction
    · simp [plain]
    · by_cases known : existing.kind = .freeFunction
      · simp [plain, known]
      · cases wins <;> simp [plain, known]
  all_goals exact .inl rfl

/-- A mention can speak of what is known under its name, when one of both is a
stand-in, or when the families agree and a namespace is no record. -/
theorem compatible_iff {key : EntityKey} {kind : EntityKind} {implied : Bool}
    {mention : Mention} :
    compatible key kind implied mention = true ↔
      key.family = .placeholder ∨ mention.key.family = .placeholder ∨
        (key.family = mention.key.family ∧
          (key.family = .scope → implied = false → mention.implied = false →
            (kind = .namespaceScope ↔ mention.kind = .namespaceScope))) := by
  unfold compatible
  by_cases standIn : key.family = .placeholder ∨ mention.key.family = .placeholder
  · simp only [if_pos standIn, true_iff]
    exact standIn.imp_right .inl
  · obtain ⟨notKnown, notMention⟩ := not_or.mp standIn
    by_cases same : key.family = mention.key.family
    · by_cases settled : key.family = .scope ∧ implied = false ∧ mention.implied = false
      · rw [if_neg standIn, if_neg (Classical.not_not.mpr same), if_pos settled]
        rw [beq_iff_eq, decide_eq_decide]
        constructor
        · exact fun kinds => .inr (.inr ⟨same, fun _ _ _ => kinds⟩)
        · rintro (standIn | other | ⟨_, kinds⟩)
          · exact absurd standIn notKnown
          · exact absurd other notMention
          · exact kinds settled.1 settled.2.1 settled.2.2
      · rw [if_neg standIn, if_neg (Classical.not_not.mpr same), if_neg settled]
        simp only [true_iff]
        exact .inr (.inr ⟨same, fun isScope first second =>
          absurd ⟨isScope, first, second⟩ settled⟩)
    · rw [if_neg standIn, if_pos same]
      simp [notKnown, notMention, same]

end Mention

namespace Catalogue

/-- The catalogue in which nothing was mentioned yet is housed. -/
theorem housed_empty : empty.Housed [] := by
  have noEdges : ∀ {source target : Nat} {relation : Relation},
      ¬ empty.graph.Related source relation target := by
    rintro source target relation ⟨id, there⟩
    have free : empty.graph.edgeKey? id = none := by
      simp [empty, Graph.edgeKey?, Graph.empty, Graph.addNode]
    rw [free] at there
    cases there
  have keys : ∀ {id : Nat} {key : EntityKey}, empty.graph.key? id = some key → key = .global := by
    intro id key carried
    have table : empty.graph.key? id = if 0 = id then some .global else none := by
      by_cases first : 0 = id
      · simp [empty, Graph.empty, Graph.key?, Graph.addNode, first]
      · simp [empty, Graph.empty, Graph.key?, Graph.addNode, first]
    rw [table] at carried
    by_cases first : 0 = id
    · rw [if_pos first] at carried
      exact (Option.some.inj carried).symm
    · simp [first] at carried
  constructor
  case sound => exact Graph.sound_empty
  case loose_there => intro id member; cases member
  case contains_iff =>
    intro scope member
    constructor
    · exact fun related => absurd related noEdges
    · rintro ⟨_, key, carried, lies, _⟩
      exact absurd (keys carried) lies.1
  case holder_there =>
    intro member key carried lies
    exact absurd (keys carried) lies.1
  case mem_members =>
    intro scope member name
    have nothing : empty.membersNamed scope name = [] := Graph.listAt_empty _
    rw [nothing]
    constructor
    · intro member
      cases member
    · exact fun both => absurd both.1 noEdges
  case members_nodup =>
    intro scope name
    have nothing : empty.membersNamed scope name = [] := Graph.listAt_empty _
    rw [nothing]
    exact List.nodup_nil

/-- At the start nothing is related. -/
theorem unlinked_empty : empty.Unlinked := by
  rintro source target relation ⟨id, there⟩
  have free : empty.graph.edgeKey? id = none := by
    simp [empty, Graph.edgeKey?, Graph.empty, Graph.addNode]
  rw [free] at there
  cases there

/-- What a catalogue knows after a mention. -/
structure Registered (before after : Catalogue) (mention : Mention) : Prop where
  profile : ∀ key, after.graph.profile? key =
    if key = mention.key then some (mention.profileAfter (before.graph.profile? key))
    else (before.graph.profile? key).or (mention.impliedAround key)
  keys_kept : ∀ {id : Nat} {key : EntityKey}, before.graph.key? id = some key →
    after.graph.key? id = some key
  moved : after.moved = before.moved
  unlinked : before.Unlinked → after.Unlinked

/-- The catalogue in which a node has another kind and other attributes. -/
def withProfile (catalogue : Catalogue) (id : Nat) (node : Node) (profile : Profile) : Catalogue :=
  { catalogue with
    graph := catalogue.graph.withNode id
      { node with kind := profile.kind, attributes := profile.attributes } }

/-- Merging a mention into a node gives the node the joined profile. It fails,
after the attributes were joined, where the kind of the mention is outside the
family of the key. -/
theorem ensures_mergeInto {catalogue : Catalogue} {id : Nat} {node : Node} {mention : Mention}
    {done : Nat → Catalogue → Prop} {failed : Catalogue → Prop}
    (found : catalogue.graph.nodeTable[id]? = some node) (sameKey : node.key = mention.key)
    (nodeFamily : node.kind.family = node.key.family)
    (onSuccess : (mention.joined node.profile).kind.family = mention.key.family →
      done id (catalogue.withProfile id node (mention.joined node.profile)))
    (onFailure : mention.kind.family ≠ mention.key.family →
      failed (catalogue.withProfile id node
        ⟨node.kind, (mention.joined node.profile).attributes⟩)) :
    Action.Ensures (mergeInto id mention) catalogue done failed := by
  rw [Mention.joined_of_node sameKey] at onSuccess onFailure
  have wins := Mention.mergedKind_cases node mention (incomingWins node mention)
  unfold mergeInto
  refine Action.ensures_bind (Action.ensures_reading (Graph.node_of_nodeTable found) ?_)
  refine Action.ensures_bind (Action.ensures_editing
    (Graph.setAttributes_of_node _ found) ?_)
  have foundAfter : (catalogue.graph.withNode id { node with
      attributes := mergedAttributes node.attributes mention.attributes
        (incomingWins node mention) }).nodeTable[id]? =
      some { node with
        attributes := mergedAttributes node.attributes mention.attributes
          (incomingWins node mention) } := by
    rw [Graph.nodeTable_withNode, if_pos rfl]
  have twice : ∀ first second : Node,
      (catalogue.graph.withNode id first).withNode id second =
        catalogue.graph.withNode id second := by
    intro first second
    simp only [Graph.withNode, Graph.mk.injEq, true_and, and_true]
    ext number : 1
    by_cases same : id = number <;> simp [Std.ExtTreeMap.getElem?_insert, same]
  by_cases changes : mergedKind node mention (incomingWins node mention) ≠ node.kind
  · have fromMention := wins.resolve_left changes
    simp only [if_pos changes]
    by_cases family : mention.kind.family = mention.key.family
    · refine Action.ensures_bind (Action.ensures_editing
        (Graph.setKind_of_node foundAfter ?_) (Action.ensures_pure ?_))
      · rw [fromMention, family, sameKey]
      · simp only [twice]
        exact onSuccess (by rw [fromMention, family])
    · refine Action.ensures_bind (Action.ensures_editing_of_error
        (Graph.setKind_of_other_family foundAfter ?_) (onFailure family))
      rw [fromMention, sameKey]
      exact Ne.symm family
  · have same : mergedKind node mention (incomingWins node mention) = node.kind :=
      Classical.not_not.mp changes
    simp only [if_neg changes]
    refine Action.ensures_pure ?_
    rw [same, nodeFamily, sameKey] at onSuccess
    exact onSuccess rfl

/-- An entity is no scope around itself. -/
theorem not_isScopeAround_itself (key : EntityKey) :
    key.isScopeAround key.name.segments.dropLast = false := by
  rw [Bool.eq_false_iff]
  intro around
  obtain ⟨front, someSegment, isPrefix, rfl⟩ := EntityKey.isScopeAround_iff.mp around
  have short := isPrefix.length_le
  have some_ := List.length_pos_iff.mpr someSegment
  simp only [EntityKey.scope, List.length_dropLast] at short
  omega

/-- The first mention of an entity creates its node in its scope. -/
theorem succeeds_create {catalogue : Catalogue} {mention : Mention} (housed : catalogue.Housed [])
    (fresh : catalogue.graph.nodeByKey? mention.key = none)
    (family : mention.kind.family = mention.key.family) :
    Action.Succeeds (create mention) catalogue fun id after =>
      after.graph.key? id = some mention.key ∧ after.Housed [] ∧
        catalogue.Registered after mention := by
  have added := housed.addNode (initialAttributes mention) fresh family
  have keys := catalogue.graph.key?_addNode mention.key mention.kind (initialAttributes mention)
  have profiles := housed.sound.profile?_addNode (initialAttributes mention)
    fresh family
  have newKey := (keys catalogue.graph.nextNode).trans (if_pos rfl)
  have unknown := housed.sound.profile?_eq_none.mpr fresh
  have keysKept : ∀ {id : Nat} {key : EntityKey}, catalogue.graph.key? id = some key →
      (catalogue.graph.addNode mention.key mention.kind (initialAttributes mention)).key? id =
        some key := by
    intro id key carried
    rw [keys, if_neg (Nat.ne_of_gt (housed.sound.lt_of_key? carried)), carried]
  unfold create
  refine Action.ensures_bind (Action.ensures_changing
    (Graph.insert_of_fresh (initialAttributes mention) fresh family) ?_)
  by_cases standIn : mention.key.family = .placeholder
  · simp only [standIn, ne_eq, not_true_eq_false, if_false]
    refine Action.ensures_pure ⟨newKey, added.settle rfl newKey ?_, ?_⟩
    · exact fun lies => lies.2 standIn
    · refine ⟨fun key => ?_, keysKept, rfl, fun unlinked => unlinked⟩
      refine (profiles key).trans ?_
      by_cases same : mention.key = key
      · subst same
        simp [unknown, Mention.profileAfter, Mention.firstProfile]
      · simp [same, Ne.symm same, Mention.impliedAround, standIn]
  · have notGlobal : mention.key ≠ .global := by
      rintro global
      rw [global, housed.sound.nodeByKey?_eq_some.mpr housed.sound.root_key] at fresh
      cases fresh
    have outward : mention.key.name.segments.reverse.tail.reverse =
        mention.key.name.segments.dropLast := by simp
    have apart : ApartFrom
        { catalogue with
          graph := catalogue.graph.addNode mention.key mention.kind (initialAttributes mention) }
        [catalogue.graph.nextNode] mention.key.name.segments.reverse.tail.reverse := by
      intro id isLoose key carried
      rw [List.mem_singleton] at isLoose
      subst isLoose
      rw [newKey] at carried
      cases carried
      rw [outward]
      exact not_isScopeAround_itself mention.key
    simp only [if_pos standIn]
    refine Action.ensures_bind ((succeeds_ensureScope added apart).weaken ?_)
    rintro scope middle ⟨scopeKey, housedMiddle, ensured⟩
    have carried := ensured.key?_kept newKey
    rw [outward] at scopeKey ensured
    refine Action.ensures_bind (ensures_attach (by rw [scopeKey]; rfl) carried
      (Action.ensures_pure ?_))
    refine ⟨(Graph.key?_withEdge _).trans carried, ?_, ?_⟩
    · exact housedMiddle.attached (List.not_mem_nil) carried ⟨notGlobal, standIn⟩ scopeKey
    · constructor
      case profile =>
        intro key
        refine (Graph.profile?_withEdge _ _ key).trans ((ensured.profile key).trans ?_)
        rw [profiles]
        by_cases same : mention.key = key
        · subst same
          simp [unknown, Mention.profileAfter, Mention.firstProfile]
        · simp [same, Ne.symm same, Mention.impliedAround, standIn]
      case keys_kept =>
        intro id key held
        exact (Graph.key?_withEdge _).trans (ensured.key?_kept (keysKept held))
      case moved => exact ensured.moved
      case unlinked =>
        intro unlinked
        refine Unlinked.attached (ensured.unlinked ?_) housedMiddle.sound scope _ _
        exact unlinked

/-- With an entity, all scopes around it are there. -/
theorem Housed.around_there {catalogue : Catalogue} (housed : catalogue.Housed []) {id : Nat}
    {key around : EntityKey} (carried : catalogue.graph.key? id = some key)
    (family : key.family ≠ .placeholder) (isAround : around.isScopeAround key.name.segments.dropLast) :
    ∃ scope, catalogue.graph.key? scope = some around := by
  have lies : key.LiesInScope := by
    refine ⟨?_, family⟩
    rintro rfl
    simp [EntityKey.global, EntityKey.scope, ScopedName.global] at isAround
  obtain ⟨scope, held⟩ := housed.holder_there carried lies List.not_mem_nil
  exact housed.scopes_there (fun _ isLoose => absurd isLoose List.not_mem_nil) held isAround

/-- Giving a node another profile of the family of its key. -/
theorem Housed.registered_withProfile {catalogue : Catalogue} (housed : catalogue.Housed [])
    {id : Nat} {node : Node} {mention : Mention}
    (found : catalogue.graph.nodeTable[id]? = some node) (sameKey : node.key = mention.key) :
    catalogue.Registered (catalogue.withProfile id node (mention.joined node.profile)) mention := by
  have carried : catalogue.graph.key? id = some mention.key := by
    rw [Graph.key?_of_node found, sameKey]
  have known : catalogue.graph.profile? mention.key = some node.profile := by
    rw [← sameKey]
    exact housed.sound.profile?_of_node found
  constructor
  case profile =>
    intro key
    refine (housed.sound.profile?_withNode found key).trans ?_
    rw [sameKey]
    by_cases same : mention.key = key
    · subst same
      rw [if_pos rfl, if_pos rfl, known]
      rfl
    · rw [if_neg same, if_neg (Ne.symm same)]
      unfold Mention.impliedAround
      by_cases around : mention.key.family ≠ .placeholder ∧
          key.isScopeAround mention.key.name.segments.dropLast
      · obtain ⟨scope, held⟩ := housed.around_there carried around.1 around.2
        obtain ⟨profile, there⟩ := Option.isSome_iff_exists.mp
          (housed.sound.profile?_isSome.mpr ⟨scope, held⟩)
        simp [there]
      · rw [if_neg around, Option.or_none]
  case keys_kept =>
    intro other key held
    refine Eq.trans (Graph.key?_withNode found ?_ other) held
    rfl
  case moved => rfl
  case unlinked => exact fun unlinked => unlinked

/-- Registering a mention succeeds, or the kind of the mention is outside the
family of its key. -/
theorem ensures_register {catalogue : Catalogue} (housed : catalogue.Housed []) (mention : Mention) :
    Action.Ensures (register mention) catalogue
      (fun id after => after.graph.key? id = some mention.key ∧ after.Housed [] ∧
        catalogue.Registered after mention)
      (fun after => mention.kind.family ≠ mention.key.family ∧ after.Housed [] ∧
        (catalogue.Unlinked → after.Unlinked)) := by
  unfold register
  refine Action.ensures_bind (Action.ensures_get ?_)
  cases known : catalogue.graph.nodeByKey? mention.key with
  | some id =>
    have carried := housed.sound.nodeByKey?_eq_some.mp known
    obtain ⟨node, found, sameKey⟩ := Graph.key?_eq_some.mp carried
    have nodeFamily := housed.sound.kind_family found
    refine ensures_mergeInto found sameKey nodeFamily (fun family => ⟨?_, ?_, ?_⟩)
      fun outside => ⟨outside, ?_, ?_⟩
    · refine Eq.trans (Graph.key?_withNode found ?_ id) carried
      rfl
    · exact housed.withNode found rfl rfl (family.trans (congrArg EntityKey.family sameKey.symm))
    · exact housed.registered_withProfile found sameKey
    · exact housed.withNode found rfl rfl nodeFamily
    · exact fun unlinked => unlinked
  | none =>
    by_cases family : mention.kind.family = mention.key.family
    · exact (succeeds_create housed known family).ensures
    · exact Action.ensures_bind (Action.ensures_changing_of_error
        (Graph.insert_of_other_family _ known family) ⟨family, housed, id⟩)

end Catalogue

end DeclGraph
