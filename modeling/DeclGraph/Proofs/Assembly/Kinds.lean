import DeclGraph.Proofs.Assembly.Finish
import DeclGraph.Proofs.Assembly.History

/-!
# Kinds fit scopes

In a finished graph a function is a method exactly when its scope is a record. What
only a record can hold lies in a record, or in a namespace that is declared: an
implied scope that holds it has become a class, and no pass changes a declared
scope or a constructor.
-/

namespace DeclGraph

/-- Whether a node is a namespace that is declared and not only implied. -/
def Node.isDeclaredNamespace (node : Node) : Bool :=
  node.kind = .namespaceScope && !node.attributes.isSet AttributeName.implied

/-- The node has a scope as `fits` has it. -/
def Graph.LiesIn (graph : Graph) (node : Node) (fits : Node → Bool) : Prop :=
  ∃ scope ∈ graph.nodes, graph.parent? node.id = some scope.id ∧ fits scope

/-- The kinds of callables and data members are as their scopes have them. -/
structure Graph.KindsFitScopes (graph : Graph) : Prop where
  method_iff : ∀ node ∈ graph.nodes, node.kind = .freeFunction ∨ node.kind = .method →
    (node.kind = .method ↔ graph.LiesIn node (·.kind.isRecord))
  members : ∀ node ∈ graph.nodes,
    node.kind = .constructor ∨ node.kind = .destructor ∨ node.kind = .field →
      graph.LiesIn node fun scope => scope.kind.isRecord || scope.isDeclaredNamespace

namespace Catalogue

variable {catalogue middle after : Catalogue}

/-- A record is a node of the kind of a record. -/
theorem isRecord_iff {id : Nat} :
    catalogue.isRecord id ↔
      ∃ node, catalogue.graph.nodeTable[id]? = some node ∧ node.kind.isRecord := by
  simp only [isRecord, kind?, Option.any_map]
  cases catalogue.graph.nodeTable[id]? <;> simp

/-- A node lies in a record exactly when its scope is one. -/
theorem liesIn_record_iff (sound : catalogue.graph.Sound) {node : Node} :
    catalogue.graph.LiesIn node (·.kind.isRecord) ↔
      (catalogue.graph.parent? node.id).any catalogue.isRecord := by
  rw [Option.any_eq_true]
  constructor
  · rintro ⟨scope, there, holds, record⟩
    exact ⟨scope.id, holds, isRecord_iff.mpr ⟨scope, sound.mem_nodes.mp there, record⟩⟩
  · rintro ⟨id, holds, record⟩
    obtain ⟨scope, found, isRecord⟩ := isRecord_iff.mp record
    obtain rfl := sound.node_id found
    exact ⟨scope, sound.mem_nodes.mpr found, holds, isRecord⟩

/-- Once functions have their kinds, they are methods in records and nowhere else. -/
theorem Rekinded.method_iff (functions : middle.Rekinded after middle.functionKind) {node : Node}
    (found : after.graph.nodeTable[node.id]? = some node)
    (callable : node.kind = .freeFunction ∨ node.kind = .method) :
    node.kind = .method ↔ after.graph.LiesIn node (·.kind.isRecord) := by
  have record : after.isRecord = middle.isRecord :=
    funext fun id => functions.isRecord isRecord_functionKind id
  rw [liesIn_record_iff functions.housed.sound, functions.parent?, record]
  obtain ⟨former, _, became⟩ := functions.exists_former found
  have kind : node.kind = middle.functionKind former := by rw [became]
  have id : former.id = node.id := by rw [became]
  by_cases wasCallable : former.kind = .freeFunction ∨ former.kind = .method
  · rw [kind, functionKind, if_pos wasCallable, id]
    cases (middle.graph.parent? node.id).any middle.isRecord <;> simp
  · rw [functionKind, if_neg wasCallable] at kind
    exact absurd (kind ▸ callable) wasCallable

/-- A node that is neither function nor method keeps its kind in the last pass. -/
theorem Rekinded.kind_of_functions (functions : middle.Rekinded after middle.functionKind)
    {id : Nat} {node : Node} (found : after.graph.nodeTable[id]? = some node)
    (other : node.kind ≠ .freeFunction ∧ node.kind ≠ .method) :
    middle.graph.nodeTable[id]? = some node := by
  obtain ⟨former, held, became⟩ := functions.exists_former found
  have kind : node.kind = middle.functionKind former := by rw [became]
  have same : middle.functionKind former = former.kind := by
    unfold functionKind at kind ⊢
    split at kind
    · split at kind <;> simp [kind] at other
    · rw [if_neg ‹_›]
  rw [held, became, same]

/-- A node that is no scope keeps its kind in the first pass. -/
theorem Rekinded.kind_of_scopes (scopes : catalogue.Rekinded middle catalogue.scopeKind)
    {id : Nat} {node : Node} (found : middle.graph.nodeTable[id]? = some node)
    (other : node.key.family ≠ .scope) : catalogue.graph.nodeTable[id]? = some node := by
  obtain ⟨former, held, rfl⟩ := scopes.exists_former found
  have same : catalogue.scopeKind former = former.kind :=
    if_neg fun implied => other implied.1
  rw [held, same]

/-- An implied scope that holds what only a record can hold becomes a class. -/
theorem Rekinded.isRecord_of_holdsMembers (scopes : catalogue.Rekinded middle catalogue.scopeKind)
    {id : Nat} {scope : Node} (found : middle.graph.nodeTable[id]? = some scope)
    (isScope : scope.key.family = .scope)
    (implied : scope.attributes.isSet AttributeName.implied)
    (holds : Catalogue.holdsMembers catalogue.graph id) : scope.kind = .classRecord := by
  obtain ⟨former, held, rfl⟩ := scopes.exists_former found
  obtain rfl := scopes.housed.sound.node_id found
  exact if_pos ⟨isScope, implied, holds⟩

/-- Once kinds are settled, what only a record can hold lies in a record or in a declared
namespace. -/
theorem Rekinded.liesIn_of_member (scopes : catalogue.Rekinded middle catalogue.scopeKind)
    (functions : middle.Rekinded after middle.functionKind) (housed : catalogue.Housed [])
    {node : Node} (found : after.graph.nodeTable[node.id]? = some node)
    (member : node.kind = .constructor ∨ node.kind = .destructor ∨ node.kind = .field) :
    after.graph.LiesIn node fun scope => scope.kind.isRecord || scope.isDeclaredNamespace := by
  have sound := functions.housed.sound
  have family : node.key.family = .callable ∨ node.key.family = .field := by
    rw [← sound.kind_family found]
    rcases member with kind | kind | kind <;> simp [kind, EntityKind.family]
  have before : catalogue.graph.nodeTable[node.id]? = some node := by
    refine scopes.kind_of_scopes (functions.kind_of_functions found ?_) ?_
    · rcases member with kind | kind | kind <;> simp [kind]
    · rcases family with family | family <;> simp [family]
  have lies : node.key.LiesInScope := by
    apply EntityKey.liesInScope_of_family <;> rcases family with family | family <;> simp [family]
  -- The scope was there before kinds were settled, and so was the member in it.
  obtain ⟨id, scopeKey, related⟩ := functions.housed.exists_holder (Graph.key?_of_node found) lies
  obtain ⟨scope, scopeFound, sameKey⟩ := Graph.key?_eq_some.mp scopeKey
  obtain rfl : scope.id = id := sound.node_id scopeFound
  have isScope : scope.key.family = .scope := by rw [sameKey]; rfl
  have scopeFamily := (sound.kind_family scopeFound).trans isScope
  refine ⟨scope, sound.mem_nodes.mpr scopeFound, functions.housed.parent?_eq_some.mpr related, ?_⟩
  have settled : middle.graph.nodeTable[scope.id]? = some scope := by
    refine functions.kind_of_functions scopeFound ⟨?_, ?_⟩
    all_goals
      intro kind
      simp [kind, EntityKind.family] at scopeFamily
  have holds : Catalogue.holdsMembers catalogue.graph scope.id := by
    refine List.any_eq_true.mpr ⟨node, List.mem_filterMap.mpr ⟨node.id, ?_, before⟩, ?_⟩
    · refine housed.sound.mem_children.mpr (scopes.related.mp (functions.related.mp related))
    · rcases member with kind | kind | kind <;> simp [needsRecord, kind]
  by_cases implied : scope.attributes.isSet AttributeName.implied
  · have record := scopes.isRecord_of_holdsMembers settled isScope implied holds
    simp [record, EntityKind.isRecord]
  · cases kind : scope.kind <;>
      simp_all [EntityKind.family, EntityKind.isRecord, Node.isDeclaredNamespace]

/-- Once kinds are settled, they fit the scopes. -/
theorem Rekinded.kindsFitScopes (scopes : catalogue.Rekinded middle catalogue.scopeKind)
    (functions : middle.Rekinded after middle.functionKind) (housed : catalogue.Housed []) :
    after.graph.KindsFitScopes where
  method_iff := fun _ there callable =>
    functions.method_iff (functions.housed.sound.mem_nodes.mp there) callable
  members := fun _ there member =>
    scopes.liesIn_of_member functions housed (functions.housed.sound.mem_nodes.mp there) member

end Catalogue

namespace Linking

variable {bonds : List Bond} {before after : Linking}

/-- The linking changes neither the scope of a declared node nor what it is. -/
theorem Grows.liesIn_iff (grows : before.Grows bonds after) (start : before.catalogue.Housed [])
    {node : Node} {fits : Node → Bool} :
    after.catalogue.graph.LiesIn node fits ↔ before.catalogue.graph.LiesIn node fits := by
  have sound := start.sound
  have soundAfter := (grows.housed start).sound
  constructor
  · rintro ⟨scope, scopeThere, holds, held⟩
    rw [grows.parent? start] at holds
    obtain ⟨former, found⟩ := Graph.isSome_key?_iff.mp
      (sound.there_of_related (sound.related_of_parent? holds)).1
    have same := grows.nodes_kept start found
    rw [soundAfter.mem_nodes.mp scopeThere] at same
    cases same
    exact ⟨scope, sound.mem_nodes.mpr found, holds, held⟩
  · rintro ⟨scope, scopeThere, holds, held⟩
    refine ⟨scope, soundAfter.mem_nodes.mpr (grows.nodes_kept start
      (sound.mem_nodes.mp scopeThere)), ?_, held⟩
    rw [grows.parent? start, holds]

/-- The linking keeps kinds fitting. -/
theorem Grows.kindsFitScopes (grows : before.Grows bonds after)
    (start : before.catalogue.Housed []) (fit : before.catalogue.graph.KindsFitScopes) :
    after.catalogue.graph.KindsFitScopes where
  method_iff := by
    intro node there callable
    have was := grows.nodes_declared ((grows.housed start).sound.mem_nodes.mp there)
      (by rcases callable with kind | kind <;> simp [kind])
    rw [grows.liesIn_iff start]
    exact fit.method_iff node (start.sound.mem_nodes.mpr was) callable
  members := by
    intro node there member
    have was := grows.nodes_declared ((grows.housed start).sound.mem_nodes.mp there)
      (by rcases member with kind | kind | kind <;> simp [kind])
    exact (grows.liesIn_iff start).mpr
      (fit.members node (start.sound.mem_nodes.mpr was) member)

end Linking

namespace Assembly

/-- Finishing makes kinds fit scopes. -/
theorem kindsFitScopes_finish {assembly : Assembly} (housed : assembly.catalogue.Housed [])
    (unlinked : assembly.catalogue.Unlinked) :
    ∃ finished, assembly.finish = .ok finished ∧ finished.graph.KindsFitScopes := by
  obtain ⟨prepared, linking, finishes, housedPrepared, _, complete⟩ :=
    finish_links housed unlinked
  obtain ⟨moved, middle, housedMoved, _, _, scopes, functions⟩ :=
    (succeeds_prepare_settling (fun _ => True) (fun _ _ _ => trivial) housed unlinked
      trivial).of_run finishes.prepares
  exact ⟨_, finishes.finishes, complete.grows.kindsFitScopes housedPrepared
    (scopes.kindsFitScopes functions housedMoved)⟩

/-- Whatever units were offered, taken up or not, finishing gives a graph in which kinds fit
scopes: functions are methods in records and nowhere else, and only a declared namespace
holds constructors, destructors and data members beside records. -/
theorem offered_kindsFitScopes (settings : Settings) (units : List SourceUnit) :
    ∃ finished, ((empty settings).offered units).finish = .ok finished ∧
      finished.graph.KindsFitScopes := by
  have holds := (takenUp_accepted settings units).history.holds
  exact kindsFitScopes_finish holds.housed holds.unlinked

/-- A unit that declares a namespace, if it is a header, and a function of the same name in
it. The qualifier in front of a definition leaves open what it names, so that the definition
looks like that of a constructor. -/
def homonymUnit (path : String) (isHeader : Bool) : SourceUnit where
  path := .ofText path
  declarations :=
    (if isHeader then
      [{ kind := .namespaceScope, name := "parse", line := 1, isDefinition := true }] else []) ++
    [{ kind := if isHeader then .freeFunction else .constructor
       name := "parse"
       scope := [⟨"parse", if isHeader then .namespaceScope else .unknown⟩]
       signature := some ⟨[⟨none, "int", false⟩], some "int", false, false⟩
       isDefinition := !isHeader
       line := 2 }]
  directives := []
  parseTime := .zero
  lineCount := 3
  byteCount := 40

/-- The kinds of an entity and of its scope in the graph finished from units in their
order. -/
def finishedKinds? (units : List SourceUnit) (key : EntityKey) :
    Option (EntityKind × EntityKind) := do
  let finished ← ((empty {}).offered units).finish.toOption
  let id ← finished.graph.nodeByKey? key
  let scope ← finished.graph.parent? id
  return ((← finished.graph.nodeTable[id]?).kind, (← finished.graph.nodeTable[scope]?).kind)

/-- A function in a namespace that is named like it ends as a constructor in the namespace,
once both its declaration and its definition are taken up. -/
theorem finishedKinds?_homonym :
    let units := [homonymUnit "parse.h" true, homonymUnit "parse.cpp" false]
    (empty {}).accepted units = units ∧
      finishedKinds? units (.callable ⟨["parse", "parse"]⟩ "(int)") =
        some (.constructor, .namespaceScope) := by
  constructor <;> decide +kernel

end Assembly

end DeclGraph
