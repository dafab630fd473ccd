import DeclGraph.Proofs.Assembly.History
import DeclGraph.Proofs.Catalogue.Named

/-!
# Names in assembled graphs

Whatever units are offered to an assembly, a name in its graph is of one family, and
containment is as the names say: everything declared lies in exactly one scope, which
has the name without its last segment. Both hold of the graph that units leave and of
the graph that is finished from it, in which scopes were moved and stand-ins added.
-/

namespace DeclGraph

namespace Graph

/-- The scope some steps outwards from a node. -/
def outward? (graph : Graph) : Nat → Nat → Option Nat
  | 0, id => some id
  | steps + 1, id => (graph.parent? id).bind (graph.outward? steps)

/-- Whether containment is as the names of the nodes say. -/
structure MirrorsNames (graph : Graph) : Prop where
  one_scope : ∀ node ∈ graph.nodes, node.id ≠ root → node.kind.family ≠ .placeholder →
    ∃ scope ∈ graph.nodes,
      (graph.incoming node.id (some .contains)).map (·.source) = [scope.id] ∧
      graph.parent? node.id = some scope.id ∧
      scope.kind.family = .scope ∧ node.key.name.parent? = some scope.key.name ∧
      ∀ other ∈ graph.nodes, other.kind.family = .scope → other.key.name = scope.key.name →
        other = scope
  distance : ∀ node ∈ graph.nodes, node.kind.family ≠ .placeholder → ∀ steps : Nat,
    graph.outward? steps node.id = some root ↔ steps = node.key.name.length
  outermost : ∀ node ∈ graph.nodes, node.id = root ∨ node.kind.family = .placeholder →
    graph.incoming node.id (some .contains) = []

/-- Whether a name is of one family, and denotes one entity unless it is the name of
callables. -/
def OneFamilyPerName (graph : Graph) : Prop :=
  ∀ first ∈ graph.nodes, ∀ second ∈ graph.nodes,
    first.kind.family ≠ .placeholder → second.kind.family ≠ .placeholder →
    first.key.name = second.key.name →
      first.kind.family = second.kind.family ∧ (first.kind.family ≠ .callable → first = second)

variable {graph : Graph}

/-- Nodes of one key are the same. -/
theorem Sound.eq_of_key (sound : graph.Sound) {first second : Node} (there : first ∈ graph.nodes)
    (thereToo : second ∈ graph.nodes) (same : first.key = second.key) : first = second := by
  have found := sound.mem_nodes.mp there
  have foundToo := sound.mem_nodes.mp thereToo
  have ids := sound.id_eq_of_key? (key?_of_node found) (same ▸ key?_of_node foundToo)
  rw [ids, foundToo] at found
  exact (Option.some.inj found).symm

/-- The key of a node is known. -/
theorem Sound.known_of_mem (sound : graph.Sound) {node : Node} (there : node ∈ graph.nodes) :
    (graph.profile? node.key).isSome := by
  rw [sound.profile?_of_node (sound.mem_nodes.mp there)]
  rfl

end Graph

namespace Catalogue

variable {catalogue : Catalogue}

/-- Everything declared lies in a scope but the global namespace. -/
theorem Housed.liesInScope_of_plain (housed : catalogue.Housed []) {key : EntityKey} {id : Nat}
    (carried : catalogue.graph.key? id = some key) (plain : key.Plain)
    (declared : key.family ≠ .placeholder) (notRoot : id ≠ Graph.root) : key.LiesInScope := by
  refine plain.liesInScope declared fun nothing => notRoot ?_
  have global := plain.named declared nothing
  exact housed.sound.id_eq_of_key? carried (global ▸ housed.sound.root_key)

/-- The global namespace and stand-ins lie nowhere. -/
theorem Housed.incoming_eq_nil (housed : catalogue.Housed []) {key : EntityKey} {id : Nat}
    (carried : catalogue.graph.key? id = some key)
    (outer : id = Graph.root ∨ key.family = .placeholder) :
    catalogue.graph.incoming id (some .contains) = [] := by
  have nowhere : (catalogue.graph.incoming id (some .contains)).map (·.source) = [] := by
    rw [List.eq_nil_iff_forall_not_mem]
    intro source holds
    obtain ⟨_, other, carriedToo, lies, _⟩ :=
      housed.contains_iff.mp (housed.sound.mem_sources.mp holds)
    rw [carried] at carriedToo
    cases carriedToo
    rcases outer with rfl | standIn
    · rw [housed.sound.root_key] at carried
      exact lies.1 (Option.some.inj carried).symm
    · exact lies.2 standIn
  exact List.map_eq_nil_iff.mp nowhere

/-- From an entity with a plain key the global namespace is as many steps away as the
name has segments. -/
theorem Housed.outward?_eq_root (housed : catalogue.Housed []) {key : EntityKey} {id : Nat}
    (carried : catalogue.graph.key? id = some key) (plain : key.Plain)
    (declared : key.family ≠ .placeholder) (steps : Nat) :
    catalogue.graph.outward? steps id = some Graph.root ↔ steps = key.name.length := by
  have sound := housed.sound
  -- The walk goes from a name to its front, so it is as long as the name.
  generalize long : key.name.segments.length = length
  induction length generalizing key id steps with
  | zero =>
    have global : key = .global := plain.named declared (List.length_eq_zero_iff.mp long)
    have here : id = Graph.root := sound.id_eq_of_key? carried (global ▸ sound.root_key)
    subst here
    have top := housed.incoming_eq_nil carried (.inl rfl)
    rw [show key.name.length = 0 from long]
    cases steps with
    | zero => simp [Graph.outward?]
    | succ steps => simp [Graph.outward?, Graph.parent?, top]
  | succ length further =>
    have notRoot : id ≠ Graph.root := by
      rintro rfl
      rw [sound.root_key] at carried
      cases carried
      simp [EntityKey.global, EntityKey.scope, ScopedName.global] at long
    have lies := housed.liesInScope_of_plain carried plain declared notRoot
    obtain ⟨scope, scopeKey, related⟩ := housed.exists_holder carried lies
    have shorter : key.holder.name.segments.length = length := by
      simp [EntityKey.holder, EntityKey.scope, long]
    have isScope : key.holder.family ≠ .placeholder := by simp [EntityKey.holder, EntityKey.scope]
    rw [show key.name.length = length + 1 from long]
    cases steps with
    | zero => simp [Graph.outward?, notRoot]
    | succ steps =>
      have outer := further scopeKey (EntityKey.plain_scope _) isScope steps shorter
      rw [show key.holder.name.length = length from shorter] at outer
      rw [Graph.outward?, housed.parent?_eq_some.mpr related, Option.bind_some,
        Nat.add_right_cancel_iff]
      exact outer

/-- In a housed catalogue with plain keys containment is as the names say. -/
theorem Housed.mirrorsNames (housed : catalogue.Housed [])
    (plain : ∀ {key : EntityKey}, (catalogue.graph.profile? key).isSome → key.Plain) :
    catalogue.graph.MirrorsNames := by
  have sound := housed.sound
  have family : ∀ {node : Node}, node ∈ catalogue.graph.nodes → node.kind.family = node.key.family :=
    fun there => sound.kind_family (sound.mem_nodes.mp there)
  have carried : ∀ {node : Node}, node ∈ catalogue.graph.nodes →
      catalogue.graph.key? node.id = some node.key :=
    fun there => Graph.key?_of_node (sound.mem_nodes.mp there)
  constructor
  case one_scope =>
    intro node there notRoot declared
    rw [family there] at declared
    have lies := housed.liesInScope_of_plain (carried there) (plain (sound.known_of_mem there))
      declared notRoot
    obtain ⟨id, scopeKey, related⟩ := housed.exists_holder (carried there) lies
    obtain ⟨scope, found, sameKey⟩ := Graph.key?_eq_some.mp scopeKey
    obtain rfl : scope.id = id := sound.node_id found
    have scopeThere := sound.mem_nodes.mpr found
    refine ⟨scope, scopeThere, housed.sources_of_related related,
      housed.parent?_eq_some.mpr related, ?_, ?_, ?_⟩
    · rw [family scopeThere, sameKey]
      rfl
    · have someSegment : node.key.name.segments ≠ [] := fun nothing =>
        lies.1 ((plain (sound.known_of_mem there)).named declared nothing)
      rw [sameKey]
      simp [ScopedName.parent?, ScopedName.isGlobal, someSegment, EntityKey.holder,
        EntityKey.scope]
    · intro other otherThere isScope sameName
      rw [family otherThere] at isScope
      apply sound.eq_of_key otherThere scopeThere
      apply (plain (sound.known_of_mem otherThere)).eq_of_name
        (plain (sound.known_of_mem scopeThere)) _ sameName
      · simp [isScope]
      · simp [isScope]
      · rw [isScope, sameKey]
        rfl
  case distance =>
    intro node there declared
    rw [family there] at declared
    exact housed.outward?_eq_root (carried there) (plain (sound.known_of_mem there)) declared
  case outermost =>
    intro node there outer
    rw [family there] at outer
    exact housed.incoming_eq_nil (carried there) outer

/-- In a well-named catalogue a name is of one family. -/
theorem WellNamed.oneFamilyPerName (wellNamed : WellNamed catalogue.graph.profile?)
    (sound : catalogue.graph.Sound) : catalogue.graph.OneFamilyPerName := by
  have family : ∀ {node : Node}, node ∈ catalogue.graph.nodes → node.kind.family = node.key.family :=
    fun there => sound.kind_family (sound.mem_nodes.mp there)
  intro first there second thereToo declared declaredToo sameName
  have known := sound.known_of_mem there
  have knownToo := sound.known_of_mem thereToo
  rw [family there] at declared ⊢
  rw [family thereToo] at declaredToo ⊢
  have sameFamily := wellNamed.one_family known knownToo declared declaredToo sameName
  refine ⟨sameFamily, fun notCallable => sound.eq_of_key there thereToo ?_⟩
  exact (wellNamed.plain known).eq_of_name (wellNamed.plain knownToo) sameFamily sameName
    notCallable declared

end Catalogue

/-- The linking keeps names: all that it adds are stand-ins. -/
theorem Linking.Grows.wellNamed {bonds : List Bond} {before after : Linking}
    (grows : before.Grows bonds after) (start : before.catalogue.Housed [])
    (named : Catalogue.WellNamed before.catalogue.graph.profile?) :
    Catalogue.WellNamed after.catalogue.graph.profile? := by
  refine named.of_known fun {key} there => ?_
  obtain ⟨id, carried⟩ := (grows.housed start).sound.profile?_isSome.mp there
  exact (grows.keys_new carried).imp_left fun old => start.sound.profile?_isSome.mpr ⟨id, old⟩

/-- A declaration has a plain key. -/
theorem Declaration.plain_key (declaration : Declaration) : declaration.key.Plain where
  named := by
    intro declared nothing
    rw [declaration.key_name declared] at nothing
    simp [scopedName] at nothing
  unsigned := by
    intro notCallable declared
    rw [declaration.key_family] at notCallable declared
    unfold key
    cases known : declaration.kind.family
    case callable => exact absurd known notCallable
    all_goals rfl

/-- Units mention plain keys only. -/
theorem SourceUnit.plain_of_mem_mentions {unit : SourceUnit} {mention : Mention}
    (member : mention ∈ unit.mentions) : mention.key.Plain := by
  rcases mem_mentions_cases member with ⟨declaration, _, rfl⟩ | ⟨name, kind, _, rfl⟩
  · exact declaration.plain_key
  · rw [ofScope_key]
    exact EntityKey.plain_scope name

/-- What is known after mentions that do not contradict each other is well named. -/
theorem wellNamed_knownAfter {mentions : List Mention} (regular : AllRegular mentions)
    (agreeing : Agreeing mentions) (plain : ∀ mention ∈ mentions, mention.key.Plain) :
    Catalogue.WellNamed (knownAfter mentions) where
  plain := by
    intro key known
    rcases (knownAfter_isSome_iff regular).mp known with rfl | ⟨mention, member, rfl⟩
    · exact EntityKey.plain_scope .global
    · exact plain mention member
  one_family := by
    -- A mention never has the name of the global namespace.
    have notGlobal : ∀ mention ∈ mentions, mention.key.family ≠ .placeholder →
        mention.key.name ≠ EntityKey.global.name := by
      intro mention member declared sameName
      obtain ⟨_, itself⟩ := regular mention member
      exact itself.named declared (congrArg ScopedName.segments sameName)
    intro first second firstKnown secondKnown firstDeclared secondDeclared sameName
    rcases (knownAfter_isSome_iff regular).mp firstKnown with rfl | ⟨mention, member, rfl⟩ <;>
      rcases (knownAfter_isSome_iff regular).mp secondKnown with rfl | ⟨other, otherMember, rfl⟩
    · rfl
    · exact absurd sameName.symm (notGlobal other otherMember secondDeclared)
    · exact absurd sameName (notGlobal mention member firstDeclared)
    · have agrees := agreeing mention member other otherMember
      rw [Mention.not_contradicts_iff] at agrees
      have compatible := agrees sameName
      rw [Mention.compatible_iff] at compatible
      rcases compatible with standIn | standIn | ⟨same, _⟩
      · exact absurd standIn firstDeclared
      · exact absurd standIn secondDeclared
      · exact same

namespace Assembly

variable {settings : Settings} {units : List SourceUnit} {assembly : Assembly}

/-- Whatever was taken up, the names in the catalogue are as the mentions of units give them. -/
theorem History.wellNamed (history : History settings units assembly) :
    Catalogue.WellNamed assembly.catalogue.graph.profile? := by
  rw [funext history.holds.profile]
  refine wellNamed_knownAfter (regular_allMentions units) history.agreeing ?_
  intro mention member
  obtain ⟨unit, _, inUnit⟩ := List.mem_flatMap.mp member
  exact SourceUnit.plain_of_mem_mentions inUnit

/-- Moving scopes and settling kinds keeps names. -/
theorem wellNamed_of_prepare {before after : Catalogue} {units : List Pending}
    (housed : before.Housed []) (unlinked : before.Unlinked)
    (wellNamed : Catalogue.WellNamed before.graph.profile?)
    (ran : (prepare units).run.run before = (.ok (), after)) :
    Catalogue.WellNamed after.graph.profile? := by
  have keeps : Catalogue.Action.Succeeds (prepare units) before fun _ after =>
      after.Housed [] ∧ after.Unlinked ∧ Catalogue.WellNamed after.graph.profile? := by
    refine succeeds_prepare_keeping (fun catalogue => Catalogue.WellNamed catalogue.graph.profile?)
      ?_ ?_ housed unlinked wellNamed
    · exact fun housedMiddle moved named => moved.wellNamed housedMiddle named
    · intro middle after kindOf housedMiddle rekinded named
      refine named.of_known fun {key} there => .inl ?_
      rw [rekinded.housed.sound.profile?_isSome] at there
      obtain ⟨id, carried⟩ := there
      rw [rekinded.key?] at carried
      exact housedMiddle.sound.profile?_isSome.mpr ⟨id, carried⟩
  exact (keeps.of_run ran).2.2

/-- Finishing keeps names. -/
theorem wellNamed_finish (housed : assembly.catalogue.Housed [])
    (unlinked : assembly.catalogue.Unlinked)
    (wellNamed : Catalogue.WellNamed assembly.catalogue.graph.profile?) :
    ∃ (final : Catalogue) (unresolved : List Unresolved),
      assembly.finish = .ok ⟨final.graph, unresolved⟩ ∧ final.Housed [] ∧
        Catalogue.WellNamed final.graph.profile? := by
  obtain ⟨prepared, linking, finishes, housedPrepared, _, complete⟩ := finish_links housed unlinked
  have kept := wellNamed_of_prepare housed unlinked wellNamed finishes.prepares
  exact ⟨linking.catalogue, linking.unresolved, finishes.finishes,
    complete.grows.housed housedPrepared, complete.grows.wellNamed housedPrepared kept⟩

/-- Whatever units were offered, taken up or not, the graph is well named, and so is the
graph that is finished from it. -/
theorem offered_wellNamed (settings : Settings) (units : List SourceUnit) :
    let assembly := (Assembly.empty settings).offered units
    assembly.catalogue.Housed [] ∧ Catalogue.WellNamed assembly.catalogue.graph.profile? ∧
      ∃ (final : Catalogue) (unresolved : List Unresolved),
        assembly.finish = .ok ⟨final.graph, unresolved⟩ ∧ final.Housed [] ∧
          Catalogue.WellNamed final.graph.profile? := by
  intro assembly
  have taken : TakenUp settings _ assembly :=
    (TakenUp.start : TakenUp settings [] _).accepted units
  have holds := taken.history.holds
  have named := taken.history.wellNamed
  exact ⟨holds.housed, named, wellNamed_finish holds.housed holds.unlinked named⟩

/-- Whatever units were offered, taken up or not, containment is as the names say, and
finishing gives a graph in which it still is. -/
theorem offered_mirrorsNames (settings : Settings) (units : List SourceUnit) :
    let assembly := (Assembly.empty settings).offered units
    assembly.catalogue.graph.MirrorsNames ∧
      ∃ finished, assembly.finish = .ok finished ∧ finished.graph.MirrorsNames := by
  intro assembly
  obtain ⟨housed, named, final, unresolved, finished, housedFinal, kept⟩ :=
    offered_wellNamed settings units
  exact ⟨housed.mirrorsNames named.plain, _, finished, housedFinal.mirrorsNames kept.plain⟩

/-- Whatever units were offered, taken up or not, a name is of one family, and it still is
once the graph is finished. -/
theorem offered_oneFamilyPerName (settings : Settings) (units : List SourceUnit) :
    let assembly := (Assembly.empty settings).offered units
    assembly.catalogue.graph.OneFamilyPerName ∧
      ∃ finished, assembly.finish = .ok finished ∧ finished.graph.OneFamilyPerName := by
  intro assembly
  obtain ⟨housed, named, final, unresolved, finished, housedFinal, kept⟩ :=
    offered_wellNamed settings units
  exact ⟨named.oneFamilyPerName housed.sound, _, finished,
    kept.oneFamilyPerName housedFinal.sound⟩

end Assembly

end DeclGraph
