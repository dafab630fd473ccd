import DeclGraph.Proofs.Assembly.Finishing
import DeclGraph.Proofs.Linking.Overrides

/-!
# Overriding within a hierarchy

What a method may override is found in the bases of its record, behind bases that hold no
callable of its name and signature. The candidates that a search lists are these, wherever a
record is not its own base, and then no method is asked for on its own behalf either. The later
passes of the linking leave hierarchies and what they hold as they are.
-/

namespace DeclGraph

namespace Graph

/-- A record holds a callable of a name and a signature. -/
def HoldsCallable (graph : Graph) (record : Nat) (name : String) (signature : Option String) :
    Prop :=
  ∃ callable ∈ graph.nodes, callable.kind.isCallable ∧
    graph.Related record .contains callable.id ∧ callable.key.name.simple = name ∧
    callable.key.signature = signature

/-- What has the name and the signature of a method lies in a base that is reached from the
record of the method without passing a callable of this name and signature. -/
structure FindsInBase (graph : Graph) (method base : Node) : Prop where
  one_name : method.key.name.simple = base.key.name.simple
  one_signature : method.key.signature = base.key.signature
  reached : ∃ record ancestor, graph.Related record .contains method.id ∧
    graph.Related ancestor .contains base.id ∧
    graph.ReachesBase (fun passed =>
      ¬ graph.HoldsCallable passed method.key.name.simple method.key.signature) record ancestor

/-- No record is a base of itself, however far up. -/
def InheritsAcyclic (graph : Graph) : Prop :=
  ∀ record, ¬ Relation.TransGen graph.Derives record record

/-- A base that is reached is a base of a base, and so on, of the record at the start. -/
theorem ReachesBase.transGen {graph : Graph} {passed : Nat → Prop} {start base : Nat}
    (reached : graph.ReachesBase passed start base) :
    Relation.TransGen graph.Derives start base := by
  induction reached with
  | direct derives => exact .single derives
  | behind _ _ derives further => exact further.tail derives

/-- Where every base has a smaller number than what derives from it, nothing is its own base. -/
theorem inheritsAcyclic_of_smaller {graph : Graph}
    (smaller : ∀ edge ∈ graph.edges, edge.relation = .inherits → edge.target < edge.source) :
    graph.InheritsAcyclic := by
  have step : ∀ {derived base : Nat}, graph.Derives derived base → base < derived := by
    rintro derived base ⟨⟨id, at_⟩, _⟩
    obtain ⟨edge, found, ends⟩ := edgeKey?_eq_some.mp at_
    have below := smaller edge (mem_values.mpr ⟨id, found⟩) (congrArg EdgeKey.relation ends)
    have isTarget : edge.target = base := congrArg EdgeKey.target ends
    have isSource : edge.source = derived := congrArg EdgeKey.source ends
    rwa [isTarget, isSource] at below
  have path : ∀ {derived base : Nat}, Relation.TransGen graph.Derives derived base →
      base < derived := by
    intro derived base reached
    induction reached with
    | single derives => exact step derives
    | tail _ derives further => exact Nat.lt_trans (step derives) further
  exact fun record circle => Nat.lt_irrefl record (path circle)

end Graph

/-- Records are scopes. -/
theorem EntityKind.family_of_isRecord {kind : EntityKind} (isRecord : kind.isRecord) :
    kind.family = .scope := by
  cases kind <;> simp_all [EntityKind.isRecord, family]

/-- An instance method can be called. -/
theorem Node.IsInstanceMethod.isCallable {node : Node} (fits : node.IsInstanceMethod) :
    node.kind.isCallable := by
  simp [EntityKind.isCallable, fits.1, EntityKind.family]

namespace Catalogue

variable {catalogue : Catalogue} {name signature : String} {method base : Node}

/-- A node of a callable kind has the key of a callable. -/
theorem family_of_isCallable (sound : catalogue.graph.Sound)
    (held : catalogue.graph.nodeTable[base.id]? = some base) (isCallable : base.kind.isCallable) :
    base.key.family = .callable :=
  (sound.kind_family held).symm.trans (by simpa [EntityKind.isCallable] using isCallable)

/-- The key of a callable notes its signature. -/
theorem CallablesSigned.exists_signature (signed : catalogue.CallablesSigned)
    (sound : catalogue.graph.Sound) (held : catalogue.graph.nodeTable[base.id]? = some base)
    (isCallable : base.kind.isCallable) : ∃ text, base.key.signature = some text :=
  Option.isSome_iff_exists.mp
    (signed (Graph.key?_of_node held) (family_of_isCallable sound held isCallable))

section Candidates

variable (housed : catalogue.Housed []) (named : WellNamed catalogue.graph.profile?)

include housed named

/-- The callable of a name and a signature in a record is what lies there and has them. -/
theorem callableIn?_iff {record derived : Nat} (isBase : catalogue.graph.Derives derived record) :
    catalogue.callableIn? name signature record = some base ↔
      base ∈ catalogue.graph.nodes ∧ base.kind.isCallable ∧
        catalogue.graph.Related record .contains base.id ∧ base.key.name.simple = name ∧
        base.key.signature = some signature := by
  rw [callableIn?_eq_some housed.sound, housed.sound.mem_nodes]
  refine and_congr_right fun held => ?_
  have carried := Graph.key?_of_node held
  constructor
  · rintro ⟨key, recordKey, carries⟩
    have callable : base.key.family = .callable := by rw [carries]; rfl
    have isCallable : base.kind.isCallable := by
      simpa [EntityKind.isCallable] using (housed.sound.kind_family held).trans callable
    refine ⟨isCallable, ?_, by simp [carries, EntityKey.callable], by rw [carries]; rfl⟩
    -- The record carries the key of the scope that the name of the callable tells.
    obtain ⟨scope, scopeKey, related⟩ := housed.exists_holder carried
      (EntityKey.liesInScope_of_family (by simp [callable]) (by simp [callable]))
    obtain ⟨_, node, there, rfl, isRecord⟩ := isBase
    have nodeHeld := housed.sound.mem_nodes.mp there
    have nodeCarried := Graph.key?_of_node nodeHeld
    rw [nodeCarried] at recordKey
    cases recordKey
    have plain := named.plain (housed.sound.profile?_isSome.mpr ⟨_, nodeCarried⟩)
    have scopeFamily : node.key.family = .scope :=
      (housed.sound.kind_family nodeHeld).symm.trans (EntityKind.family_of_isRecord isRecord)
    have holder : base.key.holder = node.key := by
      refine (EntityKey.plain_scope _).eq_of_name plain scopeFamily.symm ?_ ?_ ?_
      · simp [carries, EntityKey.callable, EntityKey.scope, ScopedName.child]
      · simp [EntityKey.scope]
      · simp [EntityKey.scope]
    rw [holder] at scopeKey
    rwa [housed.sound.id_eq_of_key? scopeKey nodeCarried] at related
  · rintro ⟨isCallable, related, rfl, isSigned⟩
    obtain ⟨outer, scopeKey, isChild⟩ := housed.child_of_related named carried related
    exact ⟨_, scopeKey, EntityKey.eq_of_parts
      (family_of_isCallable housed.sound held isCallable) isChild isSigned⟩

/-- A base shows no callable under a name and a signature exactly when it holds none. -/
theorem callableIn?_eq_none_iff {record derived : Nat}
    (isBase : catalogue.graph.Derives derived record) :
    catalogue.callableIn? name signature record = none ↔
      ¬ catalogue.graph.HoldsCallable record name (some signature) := by
  rw [Option.eq_none_iff_forall_not_mem]
  simp only [Option.mem_def, callableIn?_iff housed named isBase, Graph.HoldsCallable]
  constructor
  · rintro nothing ⟨callable, there, holds⟩
    exact nothing callable ⟨there, holds⟩
  · rintro nothing callable ⟨there, holds⟩
    exact nothing ⟨callable, there, holds⟩

/-- Whether something is overridden is asked up the hierarchy only. -/
theorem transGen_of_mem_candidates (among : base ∈ catalogue.candidates method) :
    Relation.TransGen catalogue.graph.Derives (catalogue.scopeOf method.id)
      (catalogue.scopeOf base.id) := by
  obtain ⟨record, _, reached, found⟩ := (mem_candidates housed.sound).mp among
  obtain ⟨_, isBase⟩ := reached.exists_derives
  obtain ⟨_, _, inRecord, _⟩ := (callableIn?_iff housed named isBase).mp found
  have scope : catalogue.scopeOf base.id = record := by
    rw [scopeOf, housed.parent?_eq_some.mpr inRecord]
    rfl
  rw [scope]
  exact reached.transGen

/-- Where no record is its own base, no method is asked for on its own behalf. -/
theorem asksInNoCircle_of_acyclic (acyclic : catalogue.graph.InheritsAcyclic) (id : Nat) :
    catalogue.AsksInNoCircle id := by
  intro other _ circle
  refine acyclic (catalogue.scopeOf other) (circle.lift' catalogue.scopeOf ?_)
  rintro _ _ ⟨_, among, _⟩
  exact transGen_of_mem_candidates housed named among

variable (signed : catalogue.CallablesSigned)
  (held : catalogue.graph.nodeTable[method.id]? = some method) (fits : method.IsInstanceMethod)

include signed held fits

/-- The records that the search for a method passes through hold no callable like it. -/
theorem reachesBase_iff {start record : Nat} :
    catalogue.graph.ReachesBase (fun passed => catalogue.callableIn? method.key.name.simple
        (method.key.signature.getD "") passed = none) start record ↔
      catalogue.graph.ReachesBase (fun passed => ¬ catalogue.graph.HoldsCallable passed
        method.key.name.simple method.key.signature) start record := by
  obtain ⟨text, isSigned⟩ := signed.exists_signature housed.sound held fits.isCallable
  rw [isSigned]
  constructor
  · exact fun reached => reached.imp id fun isBase =>
      (callableIn?_eq_none_iff housed named isBase).mp
  · exact fun reached => reached.imp id fun isBase =>
      (callableIn?_eq_none_iff housed named isBase).mpr

/-- A candidate is a node, and the search through the bases of the method comes upon it. -/
theorem findsInBase_of_mem_candidates (among : base ∈ catalogue.candidates method) :
    base ∈ catalogue.graph.nodes ∧ catalogue.graph.FindsInBase method base := by
  obtain ⟨record, _, reached, found⟩ := (mem_candidates housed.sound).mp among
  obtain ⟨_, isBase⟩ := reached.exists_derives
  obtain ⟨there, _, related, sameName, sameSignature⟩ :=
    (callableIn?_iff housed named isBase).mp found
  obtain ⟨text, isSigned⟩ := signed.exists_signature housed.sound held fits.isCallable
  have inScope := housed.related_scopeOf held (by simp [fits.1, EntityKind.family])
    (by simp [fits.1, EntityKind.family])
  refine ⟨there, sameName.symm, by simp [isSigned, sameSignature], _, record, inScope, related, ?_⟩
  exact (reachesBase_iff housed named signed held fits).mp reached

/-- Where nothing inherits from itself the search finds all candidates. -/
theorem mem_candidates_of_findsInBase (acyclic : catalogue.graph.InheritsAcyclic)
    (there : base ∈ catalogue.graph.nodes) (isCallable : base.kind.isCallable)
    (finds : catalogue.graph.FindsInBase method base) : base ∈ catalogue.candidates method := by
  obtain ⟨sameName, sameSignature, record, ancestor, inRecord, inAncestor, reached⟩ := finds
  have scope : catalogue.scopeOf method.id = record := by
    rw [scopeOf, housed.parent?_eq_some.mpr inRecord]
    rfl
  obtain ⟨_, isBase⟩ := reached.exists_derives
  obtain ⟨text, isSigned⟩ := signed.exists_signature housed.sound held fits.isCallable
  refine (mem_candidates housed.sound).mpr ⟨ancestor, ?_, ?_, ?_⟩
  · rw [scope]
    rintro rfl
    exact acyclic ancestor reached.transGen
  · rw [scope]
    exact (reachesBase_iff housed named signed held fits).mpr reached
  · refine (callableIn?_iff housed named isBase).mpr
      ⟨there, isCallable, inAncestor, sameName.symm, ?_⟩
    rw [← sameSignature, isSigned]
    rfl

end Candidates

end Catalogue

namespace Linking.Grows

variable {bonds : List Bond} {before after : Linking} (grows : before.Grows bonds after)
  (start : before.catalogue.Housed [])

include grows start

/-- The linking changes nothing about the callables that a record holds. -/
theorem holdsCallable_iff {record : Nat} {name : String} {signature : Option String} :
    after.catalogue.graph.HoldsCallable record name signature ↔
      before.catalogue.graph.HoldsCallable record name signature := by
  refine exists_congr fun callable => ?_
  rw [grows.contains_iff start]
  refine and_congr_left fun ⟨isCallable, _⟩ => grows.mem_nodes_iff start ?_
  intro standIn
  simp [standIn, EntityKind.isCallable, EntityKind.family] at isCallable

variable (quiet : ∀ bond ∈ bonds, bond.relation ≠ .inherits)

include quiet

/-- Once the bases are linked they stay as they are. -/
theorem derives_iff {derived base : Nat} :
    after.catalogue.graph.Derives derived base ↔ before.catalogue.graph.Derives derived base := by
  refine and_congr (grows.related_iff start quiet) (exists_congr fun node => ?_)
  refine and_congr_left fun ⟨_, isRecord⟩ => grows.mem_nodes_iff start ?_
  intro standIn
  simp [standIn, EntityKind.isRecord] at isRecord

/-- The further linking makes no circle of bases and removes none. -/
theorem inheritsAcyclic_iff :
    after.catalogue.graph.InheritsAcyclic ↔ before.catalogue.graph.InheritsAcyclic := by
  have same : after.catalogue.graph.Derives = before.catalogue.graph.Derives := by
    ext derived base
    exact grows.derives_iff start quiet
  rw [Graph.InheritsAcyclic, Graph.InheritsAcyclic, same]

/-- The further linking changes nothing about what a method finds in its bases. -/
theorem findsInBase_iff {method base : Node} :
    after.catalogue.graph.FindsInBase method base ↔
      before.catalogue.graph.FindsInBase method base := by
  constructor
  · rintro ⟨sameName, sameSignature, record, ancestor, inRecord, inAncestor, reached⟩
    refine ⟨sameName, sameSignature, record, ancestor, (grows.contains_iff start).mp inRecord,
      (grows.contains_iff start).mp inAncestor, reached.imp (grows.derives_iff start quiet).mp ?_⟩
    exact fun _ => mt (grows.holdsCallable_iff start).mpr
  · rintro ⟨sameName, sameSignature, record, ancestor, inRecord, inAncestor, reached⟩
    refine ⟨sameName, sameSignature, record, ancestor, (grows.contains_iff start).mpr inRecord,
      (grows.contains_iff start).mpr inAncestor, reached.imp (grows.derives_iff start quiet).mpr ?_⟩
    exact fun _ => mt (grows.holdsCallable_iff start).mp

end Linking.Grows

end DeclGraph
