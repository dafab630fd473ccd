import DeclGraph.Proofs.Linking.Growth

/-!
# Reasoning about steps of the linking

A step of the linking that relates nodes of the graph, or gives a stand-in for a
name, never fails, and the linking grows by it. A step taken for every item of a
list leaves what the single steps leave, since nothing is taken away later.
-/

namespace DeclGraph

namespace Catalogue

variable {catalogue : Catalogue}

/-- The stand-in for a spelling is found or added. -/
theorem ensures_placeholder {spelling : String} {done : Nat → Catalogue → Prop}
    {failed : Catalogue → Prop}
    (known : ∀ id, catalogue.graph.nodeByKey? (.placeholder spelling) = some id →
      done id catalogue)
    (fresh : catalogue.graph.nodeByKey? (.placeholder spelling) = none →
      done catalogue.graph.nextNode (catalogue.withPlaceholder spelling)) :
    Action.Ensures (placeholder spelling) catalogue done failed := by
  unfold placeholder
  refine Action.ensures_bind (Action.ensures_get ?_)
  cases found : catalogue.graph.nodeByKey? (.placeholder spelling) with
  | some id => exact Action.ensures_pure (known id found)
  | none => exact Action.ensures_changing (Graph.insert_of_fresh _ found rfl) (fresh found)

/-- Connecting two nodes of the graph makes the edge between them. -/
theorem ensures_connect {source target : Nat} {relation : Relation} {attributes : Attributes}
    {done : Nat → Catalogue → Prop} {failed : Catalogue → Prop}
    (sourceThere : catalogue.HasNode source) (targetThere : catalogue.HasNode target)
    (held : ∀ id, done id (catalogue.withEdge ⟨source, target, relation⟩ attributes)) :
    Action.Ensures
      (Action.changing fun graph => graph.connect source target relation attributes) catalogue
      done failed := by
  obtain ⟨id, connected⟩ := Graph.connect_of_nodes relation attributes sourceThere targetThere
  exact Action.ensures_changing connected (held id)

end Catalogue

namespace Linking

variable {α β : Type}

/-- The step gives a result as `done` has it. -/
def Succeeds (step : Step α) (before : Linking) (done : α → Linking → Prop) : Prop :=
  ∃ result after, step before = .ok (result, after) ∧ done result after

variable {before : Linking} {done : α → Linking → Prop}

/-- What a step succeeds in may be weakened. -/
theorem Succeeds.weaken {step : Step α} {weaker : α → Linking → Prop}
    (success : Succeeds step before done)
    (onResult : ∀ result after, done result after → weaker result after) :
    Succeeds step before weaker := by
  obtain ⟨result, after, ran, held⟩ := success
  exact ⟨result, after, ran, onResult result after held⟩

/-- Giving a value succeeds. -/
theorem succeeds_pure {value : α} (held : done value before) :
    Succeeds (pure value) before done := ⟨value, before, rfl, held⟩

/-- Two steps succeed one after the other. -/
theorem succeeds_bind {first : Step β} {next : β → Step α}
    (success : Succeeds first before fun result after => Succeeds (next result) after done) :
    Succeeds (first >>= next) before done := by
  obtain ⟨value, middle, ranFirst, result, after, ranNext, held⟩ := success
  refine ⟨result, after, ?_, held⟩
  simp only [bind, StateT.bind, ranFirst, Except.bind]
  exact ranNext

/-- Reading the state succeeds. -/
theorem succeeds_get {done : Linking → Linking → Prop} (held : done before before) :
    Succeeds get before done := ⟨before, before, rfl, held⟩

/-- Changing the state succeeds. -/
theorem succeeds_modify {done : Unit → Linking → Prop} {change : Linking → Linking}
    (held : done () (change before)) : Succeeds (modify change) before done :=
  ⟨(), change before, rfl, held⟩

/-- A step succeeds when its action on the catalogue does. -/
theorem succeeds_perform {action : Catalogue.Action α}
    (success : Catalogue.Action.Succeeds action before.catalogue
      fun result catalogue => done result { before with catalogue }) :
    Succeeds (perform action) before done := by
  obtain ⟨result, catalogue, ran, held⟩ := success.run
  refine ⟨result, { before with catalogue }, ?_, held⟩
  show perform action before = _
  simp only [perform, ran]

/-- What holds with the whole list ahead, and passes from each item to the rest,
holds in the end with nothing ahead. -/
theorem succeeds_forM {items : List β} {step : β → Step Unit} (ahead : List β → Linking → Prop)
    (each : ∀ item rest linking, item :: rest <:+ items → ahead (item :: rest) linking →
      Succeeds (step item) linking fun _ => ahead rest)
    (start : ahead items before) :
    Succeeds (items.forM step) before fun _ => ahead [] := by
  induction items generalizing before with
  | nil => exact succeeds_pure start
  | cons item rest further =>
    refine succeeds_bind ((each item rest before (List.suffix_refl _) start).weaken ?_)
    intro _ after held
    refine further (fun other tail linking isSuffix => ?_) held
    exact each other tail linking (isSuffix.trans (List.suffix_cons item rest))

/-- A run over a list keeps account of the items that lie behind. -/
theorem succeeds_forM_behind {items : List β} {step : β → Step Unit}
    (behind : List β → Linking → Prop)
    (each : ∀ earlier item later linking, items = earlier ++ item :: later →
      behind earlier linking → Succeeds (step item) linking fun _ => behind (earlier ++ [item]))
    (start : behind [] before) : Succeeds (items.forM step) before fun _ => behind items := by
  have run : ∀ earlier later linking, items = earlier ++ later → behind earlier linking →
      Succeeds (later.forM step) linking fun _ => behind items := by
    intro earlier later
    induction later generalizing earlier with
    | nil =>
      rintro linking split held
      rw [List.append_nil] at split
      exact succeeds_pure (split ▸ held)
    | cons item rest further =>
      intro linking split held
      refine succeeds_bind ((each earlier item rest linking split held).weaken ?_)
      intro _ after next
      exact further (earlier ++ [item]) after (by simp [split]) next
  exact run [] items before rfl start

/-- What every item keeps, the whole list keeps. -/
theorem succeeds_forM_invariant {items : List β} {step : β → Step Unit}
    {invariant : Linking → Prop}
    (each : ∀ item ∈ items, ∀ linking, invariant linking →
      Succeeds (step item) linking fun _ => invariant)
    (start : invariant before) : Succeeds (items.forM step) before fun _ => invariant :=
  succeeds_forM (fun _ => invariant)
    (fun item _ linking isSuffix held =>
      each item (isSuffix.subset List.mem_cons_self) linking held) start

variable {bonds : List Bond}

/-- The linking in which two nodes are related. -/
def withEdge (linking : Linking) (key : EdgeKey) (attributes : Attributes) : Linking :=
  { linking with catalogue := linking.catalogue.withEdge key attributes }

/-- Relating two nodes adds the edge and changes nothing else. -/
theorem succeeds_relate_eq {source target : Nat} {relation : Relation} {attributes : Attributes}
    (sourceThere : before.catalogue.HasNode source)
    (targetThere : before.catalogue.HasNode target) :
    Succeeds (relate source target relation attributes) before fun _ after =>
      after = before.withEdge ⟨source, target, relation⟩ attributes :=
  succeeds_bind (succeeds_perform
    (Catalogue.ensures_connect sourceThere targetThere fun _ => succeeds_pure rfl))

/-- Relating two nodes adds the edge. -/
theorem succeeds_relate {bond : Bond} {source target : Nat} {relation : Relation}
    {attributes : Attributes} (among : bond ∈ bonds)
    (joins : bond.Joins before.catalogue ⟨source, target, relation⟩ attributes) :
    Succeeds (relate source target relation attributes) before fun _ after =>
      before.Grows bonds after ∧
        after.catalogue = before.catalogue.withEdge ⟨source, target, relation⟩ attributes := by
  refine (succeeds_relate_eq joins.source_there joins.target_there).weaken ?_
  rintro _ after rfl
  exact ⟨.edge .refl among joins, rfl⟩

/-- Relating pairs of nodes one after the other relates exactly these pairs. -/
theorem succeeds_relateAll (bond : Bond) (bare : bond.isBare = true)
    {items : List β} (source target : β → Nat) (housed : before.catalogue.Housed [])
    (there : ∀ item ∈ items,
      before.catalogue.HasNode (source item) ∧ before.catalogue.HasNode (target item)) :
    Succeeds (items.forM fun item => relate (source item) (target item) bond.relation ∅) before
      fun _ after => before.Grows [bond] after ∧
        ∀ first second, after.catalogue.graph.Related first bond.relation second ↔
          before.catalogue.graph.Related first bond.relation second ∨
            ∃ item ∈ items, source item = first ∧ target item = second := by
  induction items generalizing before with
  | nil => exact succeeds_pure ⟨.refl, by simp⟩
  | cons item rest further =>
    obtain ⟨sourceThere, targetThere⟩ := there item List.mem_cons_self
    have joins := Bond.joins_bare bare sourceThere targetThere
    refine succeeds_bind ((succeeds_relate (List.mem_singleton_self _) joins).weaken ?_)
    rintro _ middle ⟨grows, became⟩
    refine (further (grows.housed housed) fun other member => ?_).weaken ?_
    · have both := there other (List.mem_cons_of_mem _ member)
      exact ⟨grows.hasNode housed both.1, grows.hasNode housed both.2⟩
    · rintro _ after ⟨more, related⟩
      refine ⟨grows.trans more, fun first second => ?_⟩
      have step : (before.catalogue.withEdge ⟨source item, target item, bond.relation⟩ ∅).graph.Related
          first bond.relation second ↔ _ := housed.sound.related_withEdge
      rw [related, became, step]
      simp only [EdgeKey.mk.injEq]
      grind

/-- A type or a stand-in can be used in a role. -/
theorem succeeds_useType {role : String} {referrer target : Nat} (among : .use role ∈ bonds)
    (housed : before.catalogue.Housed []) (there : before.catalogue.HasNode referrer)
    (usable : before.catalogue.Accepts Node.isUsable target) :
    Succeeds (useType role referrer target) before fun _ after =>
      before.Grows bonds after ∧ after.catalogue.graph.UsedAs referrer role target := by
  refine (succeeds_relate among (Bond.joins_use role there usable)).weaken ?_
  rintro _ after ⟨grows, became⟩
  refine ⟨grows, ?_⟩
  rw [became]
  exact housed.sound.usedAs_withEdge.mpr (.inr ⟨rfl, rfl, rfl⟩)

/-- A placeholder can always be had, and having it is growth. -/
theorem succeeds_placeholder (bonds : List Bond) {spelling : String} (housed : before.catalogue.Housed []) :
    Succeeds (perform (Catalogue.placeholder spelling)) before fun id after =>
      before.Grows bonds after ∧ after.catalogue.graph.key? id = some (.placeholder spelling) := by
  refine succeeds_perform (Catalogue.ensures_placeholder (fun id known => ?_) fun fresh => ?_)
  · exact ⟨.refl, housed.sound.nodeByKey?_eq_some.mp known⟩
  · refine ⟨.standIn .refl fresh, ?_⟩
    exact (before.catalogue.graph.key?_addNode _ _ _ _).trans (if_pos rfl)

/-- A placeholder can always stand in, and that is growth. -/
theorem succeeds_substitute (bonds : List Bond) {viewpoint : Viewpoint} {referrer : Nat}
    {spelling : String} {purpose : LookupPurpose} (housed : before.catalogue.Housed [])
    (there : before.catalogue.HasNode referrer) :
    Succeeds (substitute viewpoint referrer spelling purpose) before fun id after =>
      before.Grows bonds after ∧ after.catalogue.graph.key? id = some (.placeholder spelling) := by
  obtain ⟨node, found⟩ := Graph.isSome_key?_iff.mp there
  refine succeeds_bind (succeeds_perform (Catalogue.Action.ensures_reading
    (Graph.node_of_nodeTable found) ?_))
  refine succeeds_bind (succeeds_modify ?_)
  refine Succeeds.weaken (succeeds_placeholder bonds ?_) fun _ after held =>
    ⟨(Grows.note .refl ⟨viewpoint.unit, node, spelling, purpose⟩).trans held.1, held.2⟩
  exact housed

/-- The entity of a key is a node of the graph where it is known. -/
theorem hasNode_of_nodeByKey? {catalogue : Catalogue} (sound : catalogue.graph.Sound)
    {key : EntityKey} {id : Nat} (found : catalogue.nodeByKey? key = some id) :
    catalogue.HasNode id := by
  obtain ⟨settled, _, known⟩ := Option.bind_eq_some_iff.mp found
  rw [Catalogue.HasNode, sound.nodeByKey?_eq_some.mp known]
  rfl

/-- A step for the entity of a key is taken for its node, or for nothing. -/
theorem succeeds_forEntity_cases {key : EntityKey} {step : Nat → Step Unit}
    {done : Unit → Linking → Prop}
    (unknown : before.catalogue.nodeByKey? key = none → done () before)
    (each : ∀ node, before.catalogue.nodeByKey? key = some node → Succeeds (step node) before done) :
    Succeeds (forEntity key step) before done := by
  refine succeeds_bind (succeeds_get ?_)
  cases found : before.catalogue.nodeByKey? key with
  | none => exact succeeds_pure (unknown found)
  | some node => exact each node found

/-- A step for the entity of a key is taken for its node, if it has one. -/
theorem succeeds_forEntity {key : EntityKey} {step : Nat → Step Unit}
    {reached : Nat → Linking → Prop} (housed : before.catalogue.Housed [])
    (each : ∀ node, before.catalogue.HasNode node →
      Succeeds (step node) before fun _ after => before.Grows bonds after ∧ reached node after) :
    Succeeds (forEntity key step) before fun _ after => before.Grows bonds after ∧
      ∀ node, before.catalogue.nodeByKey? key = some node → reached node after := by
  refine succeeds_forEntity_cases (fun unknown => ⟨.refl, ?_⟩) fun node found => ?_
  · intro node found
    rw [unknown] at found
    cases found
  · refine (each node (hasNode_of_nodeByKey? housed.sound found)).weaken ?_
    rintro _ after ⟨grows, held⟩
    refine ⟨grows, fun other same => ?_⟩
    rw [found] at same
    cases same
    exact held

/-- A step made for an entity grows what it grows for each node, and nothing if there is none. -/
theorem succeeds_forEntity_grows {key : EntityKey} {step : Nat → Step Unit}
    (housed : before.catalogue.Housed [])
    (each : ∀ node, before.catalogue.HasNode node →
      Succeeds (step node) before fun _ => before.Grows bonds) :
    Succeeds (forEntity key step) before fun _ => before.Grows bonds :=
  succeeds_forEntity_cases (fun _ => .refl) fun node found =>
    each node (hasNode_of_nodeByKey? housed.sound found)

/-- By a list of steps by each of which the linking grows it grows. -/
theorem succeeds_forM_grows {items : List β} {step : β → Step Unit}
    (each : ∀ item ∈ items, ∀ linking, before.Grows bonds linking →
      Succeeds (step item) linking fun _ => linking.Grows bonds) :
    Succeeds (items.forM step) before fun _ => before.Grows bonds :=
  succeeds_forM_invariant
    (fun item member linking sofar => (each item member linking sofar).weaken
      fun _ _ more => sofar.trans more)
    .refl

/-- What a step for an item leaves is still there when the steps for all items are
done, if growth does not undo it. -/
theorem succeeds_forM_reaches {items : List β} {step : β → Step Unit}
    {reached : β → Linking → Linking → Prop}
    (each : ∀ item ∈ items, ∀ linking, before.Grows bonds linking →
      Succeeds (step item) linking fun _ after =>
        linking.Grows bonds after ∧ reached item linking after)
    (lasts : ∀ item stage middle after, before.Grows bonds stage → stage.Grows bonds middle →
      middle.Grows bonds after → reached item stage middle → reached item stage after) :
    Succeeds (items.forM step) before fun _ after => before.Grows bonds after ∧
      ∀ item ∈ items, ∃ stage, before.Grows bonds stage ∧ stage.Grows bonds after ∧
        reached item stage after := by
  -- What lies behind is what is not ahead.
  refine (succeeds_forM (fun rest linking => before.Grows bonds linking ∧
    ∀ item ∈ items, item ∈ rest ∨ ∃ stage, before.Grows bonds stage ∧
      stage.Grows bonds linking ∧ reached item stage linking) ?_ ⟨.refl, fun _ => .inl⟩).weaken ?_
  · rintro item rest linking isSuffix ⟨sofar, behind⟩
    refine (each item (isSuffix.subset List.mem_cons_self) linking sofar).weaken ?_
    rintro _ after ⟨more, here⟩
    refine ⟨sofar.trans more, fun other member => ?_⟩
    rcases behind other member with ahead | ⟨stage, toStage, fromStage, held⟩
    · rcases List.mem_cons.mp ahead with rfl | inRest
      · exact .inr ⟨linking, sofar, more, here⟩
      · exact .inl inRest
    · exact .inr ⟨stage, toStage, fromStage.trans more,
        lasts other stage linking after toStage fromStage more held⟩
  · rintro _ after ⟨grows, behind⟩
    exact ⟨grows, fun item member => (behind item member).resolve_left List.not_mem_nil⟩

end Linking

end DeclGraph
