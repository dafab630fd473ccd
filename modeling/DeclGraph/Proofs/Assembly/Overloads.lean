import DeclGraph.Proofs.Assembly.Finishing

/-!
# Overloads in the finished graph

In a finished graph the functions, methods and constructors of one scope and one simple name
overload each other, and nothing else does. Since a name in a scope and a signature make up the
key of a callable, no two of them have one signature.
-/

namespace DeclGraph

namespace Graph

/-- Two functions, methods or constructors lie in one scope and have one simple name. -/
structure SharesName (graph : Graph) (one other : Node) : Prop where
  apart : one ≠ other
  first_kind : one.kind = .freeFunction ∨ one.kind = .method ∨ one.kind = .constructor
  second_kind : other.kind = .freeFunction ∨ other.kind = .method ∨ other.kind = .constructor
  one_scope : ∃ scope, graph.Related scope .contains one.id ∧
    graph.Related scope .contains other.id
  one_name : one.key.name.simple = other.key.name.simple

/-- Overloads are exactly the callables that share a scope and a simple name. -/
structure OverloadsShareNames (graph : Graph) : Prop where
  related_iff : ∀ {first second : Nat}, graph.Related first .overloads second ↔
    ∃ one ∈ graph.nodes, ∃ other ∈ graph.nodes, one.id = first ∧ other.id = second ∧
      graph.SharesName one other
  symmetric : ∀ {first second : Nat}, graph.Related first .overloads second →
    graph.Related second .overloads first
  irreflexive : ∀ id, ¬ graph.Related id .overloads id
  closed : ∀ {first second third : Nat}, graph.Related first .overloads second →
    graph.Related second .overloads third → first ≠ third →
      graph.Related first .overloads third
  signatures_differ : ∀ one ∈ graph.nodes, ∀ other ∈ graph.nodes,
    graph.Related one.id .overloads other.id → one.key.signature ≠ other.key.signature

end Graph

/-- Free functions, methods and constructors can be overloaded. -/
theorem EntityKind.isOverloadable_iff {kind : EntityKind} :
    kind.isOverloadable ↔ kind = .freeFunction ∨ kind = .method ∨ kind = .constructor := by
  cases kind <;> simp [isOverloadable]

/-- What can be overloaded is a callable. -/
theorem EntityKind.family_of_isOverloadable {kind : EntityKind} (can : kind.isOverloadable) :
    kind.family = .callable := by
  cases kind <;> simp_all [isOverloadable, family]

namespace Graph.SharesName

variable {graph : Graph} {one other third : Node}

/-- Sharing a name is mutual. -/
theorem symm (shares : graph.SharesName one other) : graph.SharesName other one where
  apart := shares.apart.symm
  first_kind := shares.second_kind
  second_kind := shares.first_kind
  one_scope := by
    obtain ⟨scope, first, second⟩ := shares.one_scope
    exact ⟨scope, second, first⟩
  one_name := shares.one_name.symm

/-- Where a member lies in one scope only, what shares a name with one member shares it with the
other. -/
theorem trans (single : ∀ {first second member : Nat}, graph.Related first .contains member →
      graph.Related second .contains member → first = second)
    (shares : graph.SharesName one other) (further : graph.SharesName other third)
    (apart : one ≠ third) : graph.SharesName one third where
  apart := apart
  first_kind := shares.first_kind
  second_kind := further.second_kind
  one_scope := by
    obtain ⟨scope, first, second⟩ := shares.one_scope
    obtain ⟨scopeToo, secondToo, last⟩ := further.one_scope
    obtain rfl := single second secondToo
    exact ⟨scope, first, last⟩
  one_name := shares.one_name.trans further.one_name

end Graph.SharesName

namespace Catalogue

variable {catalogue : Catalogue} {one other : Node}

/-- The keys under which overloads are listed tell scope and name. -/
theorem Housed.overloadKey_eq_iff (housed : catalogue.Housed [])
    (oneFound : catalogue.graph.nodeTable[one.id]? = some one)
    (otherFound : catalogue.graph.nodeTable[other.id]? = some other)
    (oneCan : one.kind.isOverloadable) (otherCan : other.kind.isOverloadable) :
    catalogue.overloadKey one = catalogue.overloadKey other ↔
      (∃ scope, catalogue.graph.Related scope .contains one.id ∧
        catalogue.graph.Related scope .contains other.id) ∧
      one.key.name.simple = other.key.name.simple := by
  have inScope : ∀ {node : Node}, catalogue.graph.nodeTable[node.id]? = some node →
      node.kind.isOverloadable →
        catalogue.graph.Related (catalogue.scopeOf node.id) .contains node.id := by
    intro node found can
    have family := EntityKind.family_of_isOverloadable can
    exact housed.related_scopeOf found (by simp [family]) (by simp [family])
  have oneScope := inScope oneFound oneCan
  have otherScope := inScope otherFound otherCan
  simp only [overloadKey, MemberKey.mk.injEq]
  refine and_congr_left fun _ => ⟨fun same => ⟨_, oneScope, same ▸ otherScope⟩, ?_⟩
  rintro ⟨scope, first, second⟩
  rw [housed.single_scope oneScope first, housed.single_scope otherScope second]

/-- Callables of one scope and one name differ in their signatures. -/
theorem Housed.signature_ne (housed : catalogue.Housed [])
    (named : WellNamed catalogue.graph.profile?)
    (oneFound : catalogue.graph.nodeTable[one.id]? = some one)
    (otherFound : catalogue.graph.nodeTable[other.id]? = some other)
    (shares : catalogue.graph.SharesName one other) :
    one.key.signature ≠ other.key.signature := by
  intro sameSignature
  obtain ⟨scope, first, second⟩ := shares.one_scope
  have family : ∀ {node : Node}, catalogue.graph.nodeTable[node.id]? = some node →
      (node.kind = .freeFunction ∨ node.kind = .method ∨ node.kind = .constructor) →
        node.key.family = .callable := fun found can =>
    (housed.sound.kind_family found).symm.trans
      (EntityKind.family_of_isOverloadable (EntityKind.isOverloadable_iff.mpr can))
  have oneFamily := family oneFound shares.first_kind
  have otherFamily := family otherFound shares.second_kind
  -- A name is made up of the name of the scope and the simple name.
  obtain ⟨outer, scopeKey, oneName⟩ :=
    housed.child_of_related named (Graph.key?_of_node oneFound) first
  obtain ⟨outerToo, scopeKeyToo, otherName⟩ :=
    housed.child_of_related named (Graph.key?_of_node otherFound) second
  rw [scopeKey] at scopeKeyToo
  cases scopeKeyToo
  have sameName : one.key.name = other.key.name := by rw [oneName, otherName, shares.one_name]
  have sameKey := EntityKey.eq_of_parts (oneFamily.trans otherFamily.symm) sameName sameSignature
  exact shares.apart (housed.sound.eq_of_key (housed.sound.mem_nodes.mpr oneFound)
    (housed.sound.mem_nodes.mpr otherFound) sameKey)

end Catalogue

namespace Linking.Stages

variable {references : List SeenReference} {start last : Linking}
  (stages : Stages references start last) (housed : start.catalogue.Housed [])

include stages housed

/-- In the end those are linked as overloads that were in one group when overloads were
linked. -/
theorem overloads_linked (unlinked : start.catalogue.Unlinked) {first second : Nat} :
    last.catalogue.graph.Related first .overloads second ↔
      (first, second) ∈ stages.signed.catalogue.overloadGroups.flatMap pairsWithin := by
  have housedSigned := stages.housed_signed housed
  have none : ¬ stages.signed.catalogue.graph.Related first .overloads second := by
    intro early
    have toSigned : start.Grows earlierBonds stages.signed := stages.toSigned housed
    cases unlinked _ _ _ ((toSigned.related_iff housed (by decide)).mp early)
  have linked := ((succeeds_linkOverloads housedSigned).of_run stages.overloads).2 first second
  rw [(stages.overloadedToLast housed).related_iff (stages.housed_overloaded housed) (by decide),
    linked, or_iff_right none]

/-- In the end those are linked as overloads that share a scope and a name. -/
theorem overloads_iff (unlinked : start.catalogue.Unlinked) {first second : Nat} :
    last.catalogue.graph.Related first .overloads second ↔
      ∃ one ∈ last.catalogue.graph.nodes, ∃ other ∈ last.catalogue.graph.nodes,
        one.id = first ∧ other.id = second ∧ last.catalogue.graph.SharesName one other := by
  have housedSigned := stages.housed_signed housed
  have toLast := stages.signedToLast housed
  rw [stages.overloads_linked housed unlinked, Catalogue.mem_overloadPairs housedSigned.sound]
  -- Nodes that can be overloaded are the same before and after.
  have kept : ∀ {node : Node}, node.kind.isOverloadable →
      (node ∈ last.catalogue.graph.nodes ↔
        stages.signed.catalogue.graph.nodeTable[node.id]? = some node) := by
    intro node can
    rw [toLast.mem_nodes_iff housedSigned, housedSigned.sound.mem_nodes]
    intro standIn
    simp [standIn, EntityKind.isOverloadable] at can
  constructor
  · rintro ⟨apart, one, other, oneFound, otherFound, oneCan, otherCan, same⟩
    obtain rfl := housedSigned.sound.node_id oneFound
    obtain rfl := housedSigned.sound.node_id otherFound
    obtain ⟨⟨scope, inFirst, inSecond⟩, sameName⟩ :=
      (housedSigned.overloadKey_eq_iff oneFound otherFound oneCan otherCan).mp same
    refine ⟨one, (kept oneCan).mpr oneFound, other, (kept otherCan).mpr otherFound, rfl, rfl, ?_⟩
    exact {
      apart := fun same => apart (congrArg Node.id same.symm)
      first_kind := EntityKind.isOverloadable_iff.mp oneCan
      second_kind := EntityKind.isOverloadable_iff.mp otherCan
      one_scope := ⟨scope, (toLast.contains_iff housedSigned).mpr inFirst,
        (toLast.contains_iff housedSigned).mpr inSecond⟩
      one_name := sameName }
  · rintro ⟨one, oneThere, other, otherThere, rfl, rfl, shares⟩
    have oneCan := EntityKind.isOverloadable_iff.mpr shares.first_kind
    have otherCan := EntityKind.isOverloadable_iff.mpr shares.second_kind
    have oneFound := (kept oneCan).mp oneThere
    have otherFound := (kept otherCan).mp otherThere
    obtain ⟨scope, inFirst, inSecond⟩ := shares.one_scope
    refine ⟨fun sameId => shares.apart ?_, one, other, oneFound, otherFound, oneCan, otherCan,
      (housedSigned.overloadKey_eq_iff oneFound otherFound oneCan otherCan).mpr
        ⟨⟨scope, (toLast.contains_iff housedSigned).mp inFirst,
          (toLast.contains_iff housedSigned).mp inSecond⟩, shares.one_name⟩⟩
    rw [sameId, oneFound] at otherFound
    exact Option.some.inj otherFound

/-- Once everything is linked, overloads share scopes and names. -/
theorem overloadsShareNames (unlinked : start.catalogue.Unlinked)
    (named : Catalogue.WellNamed start.catalogue.graph.profile?) :
    last.catalogue.graph.OverloadsShareNames := by
  have toLast := stages.toLast housed
  have housedLast := toLast.housed housed
  have sound := housedLast.sound
  have namedLast := toLast.wellNamed housed named
  have related : ∀ {first second : Nat}, last.catalogue.graph.Related first .overloads second ↔ _ :=
    stages.overloads_iff housed unlinked
  have numbered : ∀ {one other : Node}, one ∈ last.catalogue.graph.nodes →
      other ∈ last.catalogue.graph.nodes → one.id = other.id → one = other := by
    intro one other oneThere otherThere sameId
    have found := sound.mem_nodes.mp oneThere
    rw [sameId, sound.mem_nodes.mp otherThere] at found
    exact (Option.some.inj found).symm
  constructor
  case related_iff => exact related
  case symmetric =>
    intro first second overloads
    obtain ⟨one, oneThere, other, otherThere, isFirst, isSecond, shares⟩ := related.mp overloads
    exact related.mpr ⟨other, otherThere, one, oneThere, isSecond, isFirst, shares.symm⟩
  case irreflexive =>
    intro id overloads
    obtain ⟨one, oneThere, other, otherThere, isFirst, isSecond, shares⟩ := related.mp overloads
    exact shares.apart (numbered oneThere otherThere (isFirst.trans isSecond.symm))
  case closed =>
    intro first second third overloads further apart
    obtain ⟨one, oneThere, other, otherThere, isFirst, isSecond, shares⟩ := related.mp overloads
    obtain ⟨again, againThere, last, lastThere, isSecondToo, isThird, sharesToo⟩ :=
      related.mp further
    obtain rfl := numbered otherThere againThere (isSecond.trans isSecondToo.symm)
    refine related.mpr ⟨one, oneThere, last, lastThere, isFirst, isThird,
      shares.trans housedLast.single_scope sharesToo ?_⟩
    rintro rfl
    exact apart (isFirst.symm.trans isThird)
  case signatures_differ =>
    intro one oneThere other otherThere overloads
    obtain ⟨first, firstThere, second, secondThere, isFirst, isSecond, shares⟩ :=
      related.mp overloads
    obtain rfl := numbered firstThere oneThere isFirst
    obtain rfl := numbered secondThere otherThere isSecond
    exact housedLast.signature_ne namedLast (sound.mem_nodes.mp oneThere)
      (sound.mem_nodes.mp otherThere) shares

end Linking.Stages

namespace Assembly

/-- Whatever units were offered, in the finished graph those callables overload each other that
share a scope and a simple name. -/
theorem offered_overloadsShareNames (settings : Settings) (units : List SourceUnit) :
    ∃ finished, ((empty settings).offered units).finish = .ok finished ∧
      finished.graph.OverloadsShareNames := by
  obtain ⟨prepared, linking, finishing⟩ := exists_finishing settings units
  obtain ⟨stages⟩ := finishing.stages
  exact ⟨_, finishing.finishes.finishes,
    stages.overloadsShareNames finishing.housed finishing.unlinked finishing.named⟩

end Assembly

end DeclGraph
