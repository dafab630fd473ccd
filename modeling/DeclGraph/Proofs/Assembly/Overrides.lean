import DeclGraph.Proofs.Assembly.Hierarchy

/-!
# Overrides in the finished graph

The overrides of a finished graph are what was worked out once the bases and everything else
that they hang on were linked. Where no record is its own base, they are exactly those that the
methods and the hierarchy declare: a method of objects overrides the methods of its name and
signature that it finds in bases, if one of the two is marked for it or the other overrides
something itself.
-/

namespace DeclGraph

namespace Graph

/-- A method overrides one that it finds in a base, when one of them is marked for it or the
latter overrides something itself. -/
structure DeclaresOverride (graph : Graph) (method base : Node) : Prop
    extends graph.FindsInBase method base where
  overrider : method.IsInstanceMethod
  overridden : base.IsInstanceMethod
  warranted : method.MarksOverride base ∨ ∃ further, graph.Related base.id .overrides further

/-- Methods override exactly what they are declared to override. -/
def OverridesDeclared (graph : Graph) : Prop :=
  ∀ first second, graph.Related first .overrides second ↔
    ∃ method ∈ graph.nodes, ∃ base ∈ graph.nodes, method.id = first ∧ base.id = second ∧
      graph.DeclaresOverride method base

end Graph

namespace Catalogue

variable {catalogue : Catalogue}

section Acyclic

variable (housed : catalogue.Housed []) (named : WellNamed catalogue.graph.profile?)
  (acyclic : catalogue.graph.InheritsAcyclic)

include housed named acyclic

/-- Where no record is its own base, the table lists everything that methods override. -/
theorem mem_overrideTable_iff {method base : Nat} :
    (∃ found, (method, found) ∈ catalogue.overrideTable ∧ base ∈ found) ↔
      method ∈ catalogue.overridingMethods ∧ catalogue.Overrides method base :=
  mem_overrideTable_of_noCircle housed.sound
    (asksInNoCircle_of_acyclic housed named acyclic method)

/-- Then a method overrides what it finds in a base, if that counts. -/
theorem overrides_iff_findsInBase (signed : catalogue.CallablesSigned) {method : Node}
    (held : catalogue.graph.nodeTable[method.id]? = some method) (fits : method.IsInstanceMethod)
    {id : Nat} :
    catalogue.Overrides method.id id ↔ ∃ base ∈ catalogue.graph.nodes, base.id = id ∧
      catalogue.graph.FindsInBase method base ∧ catalogue.IsOverridden method base := by
  rw [overrides_iff held]
  constructor
  · rintro ⟨base, among, rfl, isOverridden⟩
    obtain ⟨there, finds⟩ := findsInBase_of_mem_candidates housed named signed held fits among
    exact ⟨base, there, rfl, finds, isOverridden⟩
  · rintro ⟨base, there, rfl, finds, isOverridden⟩
    exact ⟨base, mem_candidates_of_findsInBase housed named signed held fits acyclic there
      isOverridden.1.isCallable finds, rfl, isOverridden⟩

end Acyclic

end Catalogue

namespace Linking.Stages

variable {references : List SeenReference} {start last : Linking}
  (stages : Stages references start last) (housed : start.catalogue.Housed [])

include stages housed

/-- In the end those are related as overriding that the table lists, after overloads are
linked. -/
theorem overrides_iff (unlinked : start.catalogue.Unlinked) {method base : Nat} :
    last.catalogue.graph.Related method .overrides base ↔
      ∃ found, (method, found) ∈ stages.overloaded.catalogue.overrideTable ∧ base ∈ found := by
  have housedHere := stages.housed_overloaded housed
  have none : ¬ stages.overloaded.catalogue.graph.Related method .overrides base := by
    intro early
    rw [(stages.toOverloaded housed).related_iff housed (by decide)] at early
    cases unlinked _ _ _ early
  have linked := ((succeeds_linkOverrides housedHere).of_run stages.overrides).2 method base
  rw [(stages.calledToLast housed).related_iff (stages.housed_called housed) (by decide),
    (stages.overriddenToCalled housed).related_iff (stages.housed_overridden housed) (by decide),
    linked, or_iff_right none]

/-- Once everything is linked, overrides are as declared, unless a record is its own base. -/
theorem overridesDeclared (unlinked : start.catalogue.Unlinked)
    (named : Catalogue.WellNamed start.catalogue.graph.profile?)
    (signed : start.catalogue.CallablesSigned)
    (acyclic : last.catalogue.graph.InheritsAcyclic) :
    last.catalogue.graph.OverridesDeclared := by
  have toHere := stages.toOverloaded housed
  have housedHere := stages.housed_overloaded housed
  have namedHere := toHere.wellNamed housed named
  have signedHere := toHere.callablesSigned signed
  have onward := stages.overloadedToLast housed
  have acyclicHere := (onward.inheritsAcyclic_iff housedHere (by decide)).mp acyclic
  have sound := housedHere.sound
  have related : ∀ {method base : Nat}, last.catalogue.graph.Related method .overrides base ↔
      method ∈ stages.overloaded.catalogue.overridingMethods ∧
        stages.overloaded.catalogue.Overrides method base := fun {method base} =>
    (stages.overrides_iff housed unlinked).trans
      (Catalogue.mem_overrideTable_iff housedHere namedHere acyclicHere)
  -- What is worked out for a method of objects is what it is related to in the end.
  have further : ∀ {base : Node}, stages.overloaded.catalogue.graph.nodeTable[base.id]? = some base →
      base.IsInstanceMethod → ((∃ target, stages.overloaded.catalogue.Overrides base.id target) ↔
        ∃ target, last.catalogue.graph.Related base.id .overrides target) := by
    intro base held fits
    refine exists_congr fun target => ?_
    rw [related, and_iff_right ((Catalogue.mem_overridingMethods sound).mpr ⟨base, held, fits⟩)]
  have kept : ∀ {node : Node}, node.IsInstanceMethod → (node ∈ last.catalogue.graph.nodes ↔
      stages.overloaded.catalogue.graph.nodeTable[node.id]? = some node) := by
    intro node fits
    rw [onward.mem_nodes_iff housedHere (fun standIn => by simp [fits.1] at standIn),
      sound.mem_nodes]
  intro first second
  rw [related]
  constructor
  · rintro ⟨isMethod, overrides⟩
    obtain ⟨method, held, fits⟩ := (Catalogue.mem_overridingMethods sound).mp isMethod
    obtain rfl := sound.node_id held
    obtain ⟨base, there, rfl, finds, ofObjects, warranted⟩ :=
      (Catalogue.overrides_iff_findsInBase housedHere namedHere acyclicHere signedHere held
        fits).mp overrides
    have baseHeld := sound.mem_nodes.mp there
    refine ⟨method, (kept fits).mpr held, base, (kept ofObjects).mpr baseHeld, rfl, rfl, ?_⟩
    exact {
      toFindsInBase := (onward.findsInBase_iff housedHere (by decide)).mpr finds
      overrider := fits
      overridden := ofObjects
      warranted := warranted.imp_right (further baseHeld ofObjects).mp }
  · rintro ⟨method, methodThere, base, baseThere, rfl, rfl, declares⟩
    have held := (kept declares.overrider).mp methodThere
    have baseHeld := (kept declares.overridden).mp baseThere
    have finds := (onward.findsInBase_iff housedHere (by decide)).mp declares.toFindsInBase
    refine ⟨(Catalogue.mem_overridingMethods sound).mpr ⟨method, held, declares.overrider⟩, ?_⟩
    exact (Catalogue.overrides_iff_findsInBase housedHere namedHere acyclicHere signedHere held
      declares.overrider).mpr ⟨base, sound.mem_nodes.mpr baseHeld, rfl, finds, declares.overridden,
        declares.warranted.imp_right (further baseHeld declares.overridden).mpr⟩

end Linking.Stages

namespace Assembly

/-- Whatever units were offered, in the finished graph methods override what they are declared to
override, unless a record is its own base. -/
theorem offered_overridesDeclared (settings : Settings) (units : List SourceUnit) :
    ∃ finished, ((empty settings).offered units).finish = .ok finished ∧
      (finished.graph.InheritsAcyclic → finished.graph.OverridesDeclared) := by
  obtain ⟨prepared, linking, finishing⟩ := exists_finishing settings units
  obtain ⟨stages⟩ := finishing.stages
  exact ⟨_, finishing.finishes.finishes, stages.overridesDeclared finishing.housed
    finishing.unlinked finishing.named finishing.signed⟩

/-- A record with bases. -/
def recordWith (name : String) (bases : List String) (line : Nat) : Declaration :=
  { kind := .structRecord, name, line, isDefinition := true
    bases := bases.map fun base => ⟨base, .everyone, false⟩ }

/-- A method without parameters in a record. -/
def methodIn (record : String) (line : Nat) (modifiers : Modifiers := {}) : Declaration :=
  { kind := .method, name := "f", scope := [⟨record, .structRecord⟩], line, modifiers
    signature := some ⟨[], some "void", false, false⟩, access := some .everyone }

/-- A unit of records and their methods. -/
def hierarchyUnit (declarations : List Declaration) : SourceUnit :=
  ⟨.ofText "hierarchy.h", declarations, [], .zero, 10, 200⟩

/-- A virtual method, a record that inherits it, another one with a method that is not marked,
and a record that derives from both. -/
def diamondUnit : SourceUnit :=
  hierarchyUnit
    [recordWith "V" [] 1, methodIn "V" 2 { isVirtual := true }, recordWith "L" ["V"] 3,
      recordWith "R" ["V"] 4, methodIn "R" 5, recordWith "D" ["L", "R"] 6, methodIn "D" 7]

/-- The overrides in a graph by the names of their ends. -/
def overridesByName (graph : Graph) : List (ScopedName × ScopedName) :=
  (graph.edgesOf .overrides).filterMap fun edge => do
    return ((← graph.nodeTable[edge.source]?).key.name, (← graph.nodeTable[edge.target]?).key.name)

/-- Behind a base without the method the virtual method itself is overridden as well. -/
theorem offered_overridesDeclared_diamond :
    ∃ finished, ((empty {}).offered [diamondUnit]).finish = .ok finished ∧
      overridesByName finished.graph = [(⟨["R", "f"]⟩, ⟨["V", "f"]⟩), (⟨["D", "f"]⟩, ⟨["R", "f"]⟩),
        (⟨["D", "f"]⟩, ⟨["V", "f"]⟩)] ∧
      finished.graph.InheritsAcyclic ∧ finished.graph.OverridesDeclared := by
  obtain ⟨finished, finishes, declared⟩ := offered_overridesDeclared {} [diamondUnit]
  have names : ((empty {}).offered [diamondUnit]).finish.toOption.map
      (fun finished => overridesByName finished.graph) = some [(⟨["R", "f"]⟩, ⟨["V", "f"]⟩),
        (⟨["D", "f"]⟩, ⟨["R", "f"]⟩), (⟨["D", "f"]⟩, ⟨["V", "f"]⟩)] := by decide +kernel
  have smaller : ((empty {}).offered [diamondUnit]).finish.toOption.all
      (fun finished => finished.graph.edges.all fun edge =>
        edge.relation ≠ .inherits || edge.target < edge.source) = true := by decide +kernel
  rw [finishes] at names smaller
  have acyclic : finished.graph.InheritsAcyclic := by
    refine Graph.inheritsAcyclic_of_smaller fun edge among inherits => ?_
    have below := List.all_eq_true.mp smaller edge among
    simpa [inherits] using below
  exact ⟨finished, finishes, Option.some.inj names, acyclic, declared acyclic⟩

end Assembly

end DeclGraph
