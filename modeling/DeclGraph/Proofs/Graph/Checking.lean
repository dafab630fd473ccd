import DeclGraph.Proofs.Graph.Changes
import DeclGraph.Proofs.Graph.Forest

/-!
# Checking the shape of a graph

The check of a graph passes exactly the graphs of the right shape, whatever requests led to them:
those in which nothing lies in two scopes or in itself and overloads are mutual. Circles are
looked for by a walk outwards from every node, which follows the first scope of each node. Where
nothing lies in two scopes, a walk that starts on a circle stays on circles, so it does not end
before it meets a node again; and a walk that meets a node again has gone around a circle, be it
one that does not lead through its start.
-/

namespace DeclGraph

namespace Graph

/-- What the shape of a finished graph means: nothing lies in two scopes or in
itself, and overloads are mutual. -/
structure Shaped (graph : Graph) : Prop where
  single_scope : ∀ {first second member : Nat}, graph.Related first .contains member →
    graph.Related second .contains member → first = second
  acyclic : ∀ id, ¬ graph.Encloses id id
  overloads_mutual : ∀ {first second : Nat}, graph.Related first .overloads second →
    graph.Related second .overloads first

/-- What lies in itself lies in a scope that lies in itself. -/
theorem Encloses.exists_scope {graph : Graph} {id : Nat} (circle : graph.Encloses id id) :
    ∃ scope, graph.Related scope .contains id ∧ graph.Encloses scope scope := by
  cases circle with
  | directly related => exact ⟨id, related, .directly related⟩
  | @through middle _ outer related => exact ⟨middle, related, outer.outside related⟩

namespace Sound

variable {graph : Graph}

section Walks

variable {passed : List Nat} {current steps : Nat}

/-- A walk that meets a scope again has gone around a circle. -/
theorem exists_circle_of_outwardWalkRepeats (sound : graph.Sound)
    (inside : ∀ id ∈ passed, id = current ∨ graph.Encloses current id)
    (repeats : graph.outwardWalkRepeats steps passed current = true) :
    ∃ id, graph.Encloses id id := by
  induction steps generalizing passed current with
  | zero => cases repeats
  | succ steps further =>
    unfold outwardWalkRepeats at repeats
    cases found : graph.parent? current with
    | none => simp [found] at repeats
    | some scope =>
      have related := sound.related_of_parent? found
      by_cases met : scope ∈ passed
      · rcases inside scope met with same | around
        · exact ⟨scope, .directly (same ▸ related)⟩
        · exact ⟨current, .through around related⟩
      · have rest : graph.outwardWalkRepeats steps (scope :: passed) scope = true := by
          simpa [found, met] using repeats
        refine further (fun id listed => ?_) rest
        rcases List.mem_cons.mp listed with same | before
        · exact .inl same
        · rcases inside id before with rfl | around
          · exact .inr (.directly related)
          · exact .inr (around.outside related)

/-- What has been passed is never more than the graph has nodes, so a walk of as many steps as
there are nodes left has come to its end. -/
theorem outwardWalkRepeats_add (sound : graph.Sound) (nodup : passed.Nodup)
    (there : ∀ id ∈ passed, (graph.key? id).isSome)
    (enough : graph.nodeCount < steps + passed.length) (more : Nat) :
    graph.outwardWalkRepeats (steps + more) passed current =
      graph.outwardWalkRepeats steps passed current := by
  induction steps generalizing passed current with
  | zero =>
    have few := length_le_nodeCount nodup there
    omega
  | succ steps further =>
    rw [Nat.add_right_comm, outwardWalkRepeats, outwardWalkRepeats]
    cases found : graph.parent? current with
    | none => rfl
    | some scope =>
      by_cases met : scope ∈ passed
      · simp [met]
      · have scopeThere := (sound.there_of_related (sound.related_of_parent? found)).1
        have next := @further (scope :: passed) scope
          (List.nodup_cons.mpr ⟨met, nodup⟩) (List.forall_mem_cons.mpr ⟨scopeThere, there⟩)
          (by simp only [List.length_cons]; omega)
        simpa [met] using next

/-- Where nothing lies in two scopes, a walk on circles meets a scope again. -/
theorem outwardWalkRepeats_of_circle (sound : graph.Sound)
    (single : ∀ first second member, graph.Related first .contains member →
      graph.Related second .contains member → first = second)
    (nodup : passed.Nodup) (there : ∀ id ∈ passed, (graph.key? id).isSome)
    (enough : graph.nodeCount < steps + passed.length) (circle : graph.Encloses current current) :
    graph.outwardWalkRepeats steps passed current = true := by
  induction steps generalizing passed current with
  | zero =>
    have few := length_le_nodeCount nodup there
    omega
  | succ steps further =>
    obtain ⟨scope, related, around⟩ := circle.exists_scope
    have found : graph.parent? current = some scope :=
      (sound.parent?_eq_some fun first second => single first second current).mpr related
    unfold outwardWalkRepeats
    by_cases met : scope ∈ passed
    · simp [found, met]
    · have scopeThere := (sound.there_of_related related).1
      have next := @further (scope :: passed) scope
        (List.nodup_cons.mpr ⟨met, nodup⟩) (List.forall_mem_cons.mpr ⟨scopeThere, there⟩)
        (by simp only [List.length_cons]; omega) around
      simpa [found, met] using next

end Walks

/-- The walk that looks for a circle is not cut short. -/
theorem liesOnCycle_eq_of_le (sound : graph.Sound) {id steps : Nat}
    (there : (graph.key? id).isSome) (enough : graph.nodeCount ≤ steps) :
    graph.outwardWalkRepeats steps [id] id = graph.liesOnCycle id := by
  obtain ⟨more, rfl⟩ := Nat.exists_eq_add_of_le enough
  exact sound.outwardWalkRepeats_add (by simp) (by simpa using there) (by simp) more

/-- A node that is there is listed. -/
theorem exists_node (sound : graph.Sound) {id : Nat} (there : (graph.key? id).isSome) :
    ∃ node ∈ graph.nodes, node.id = id :=
  List.mem_map.mp (sound.mem_ids.mpr there)

/-- At most one edge of containment enters a node if and only if the node does not lie in two
scopes. -/
theorem parentCount_le_one_iff (sound : graph.Sound) {member : Nat} :
    graph.parentCount member ≤ 1 ↔ ∀ first second, graph.Related first .contains member →
      graph.Related second .contains member → first = second := by
  refine ⟨fun few first second firstRelated secondRelated => ?_, sound.parentCount_le_one⟩
  have firstListed := sound.mem_sources.mpr firstRelated
  have secondListed := sound.mem_sources.mpr secondRelated
  have short : ((graph.incoming member (some .contains)).map (·.source)).length ≤ 1 := by
    rwa [List.length_map]
  generalize (graph.incoming member (some .contains)).map (·.source) = scopes at *
  match scopes with
  | [] => cases firstListed
  | [scope] => rw [List.mem_singleton.mp firstListed, List.mem_singleton.mp secondListed]
  | _ :: _ :: _ => simp at short

/-- At most one edge of containment enters every node if and only if nothing lies in two
scopes. -/
theorem single_scope_iff (sound : graph.Sound) :
    (∀ node ∈ graph.nodes, graph.parentCount node.id ≤ 1) ↔
      ∀ first second member, graph.Related first .contains member →
        graph.Related second .contains member → first = second := by
  simp only [sound.parentCount_le_one_iff]
  refine ⟨fun parents first second member related => ?_,
    fun single node _ first second => single first second node.id⟩
  obtain ⟨node, there, rfl⟩ := sound.exists_node (sound.there_of_related related).2
  exact parents node there first second related

/-- No node lies in itself if and only if nothing does. -/
theorem acyclic_iff (sound : graph.Sound) :
    (∀ node ∈ graph.nodes, ¬ graph.Encloses node.id node.id) ↔ ∀ id, ¬ graph.Encloses id id := by
  refine ⟨fun straight id circle => ?_, fun straight node _ => straight node.id⟩
  obtain ⟨scope, related, -⟩ := circle.exists_scope
  obtain ⟨node, there, rfl⟩ := sound.exists_node (sound.there_of_related related).2
  exact straight node there circle

/-- An edge of overloads has its reverse exactly when the nodes are related in both directions. -/
theorem hasReverse_iff (sound : graph.Sound) {edge : Edge} :
    graph.hasReverse edge = true ↔ graph.Related edge.target .overloads edge.source :=
  sound.edgeBetween?_isSome

/-- Overloads are mutual if and only if every edge of an overload has a reverse. -/
theorem overloads_mutual_iff (sound : graph.Sound) :
    (∀ edge ∈ graph.edgesOf .overloads, graph.hasReverse edge = true) ↔
      ∀ first second, graph.Related first .overloads second →
        graph.Related second .overloads first := by
  simp only [edgesOf, List.mem_filter, decide_eq_true_eq, sound.mem_edges, sound.hasReverse_iff]
  constructor
  · intro reversed first second related
    obtain ⟨edge, found, same⟩ := sound.related_iff.mp related
    obtain ⟨rfl, rfl, relation⟩ := EdgeKey.mk.inj same
    exact reversed edge ⟨found, relation⟩
  · rintro mutual_ edge ⟨found, relation⟩
    exact mutual_ _ _ (sound.related_iff.mpr ⟨edge, found, by rw [Edge.key, relation]⟩)

/-- Where nothing lies in two scopes, no walk comes back if and only if nothing lies in
itself. -/
theorem liesOnCycle_eq_false_iff (sound : graph.Sound)
    (single : ∀ first second member, graph.Related first .contains member →
      graph.Related second .contains member → first = second) :
    (∀ node ∈ graph.nodes, graph.liesOnCycle node.id = false) ↔
      ∀ node ∈ graph.nodes, ¬ graph.Encloses node.id node.id := by
  constructor
  · intro straight node listed circle
    have there := sound.mem_ids.mp (List.mem_map_of_mem listed)
    have met : graph.liesOnCycle node.id = true :=
      sound.outwardWalkRepeats_of_circle single (by simp) (by simpa using there) (by simp) circle
    rw [straight node listed] at met
    cases met
  · intro straight node _
    rw [← Bool.not_eq_true]
    intro repeats
    obtain ⟨id, circle⟩ := sound.exists_circle_of_outwardWalkRepeats (by simp) repeats
    exact sound.acyclic_iff.mp straight id circle

end Sound

/-- The check passes a graph in which it finds no offender of any of the three kinds. -/
theorem check_eq_ok_iff_forall {graph : Graph} : graph.check = .ok () ↔
    (∀ node ∈ graph.nodes, graph.parentCount node.id ≤ 1) ∧
      (∀ node ∈ graph.nodes, graph.liesOnCycle node.id = false) ∧
      ∀ edge ∈ graph.edgesOf .overloads, graph.hasReverse edge = true := by
  have unviolated : graph.check = .ok () ↔ graph.violation? = none := by
    unfold check
    cases graph.violation? <;> simp
  have parents : (∀ node ∈ graph.nodes, graph.parentCount node.id ≤ 1) ↔
      graph.nodes.find? (fun node => graph.parentCount node.id > 1) = none := by
    simp
  have circles : (∀ node ∈ graph.nodes, graph.liesOnCycle node.id = false) ↔
      graph.nodes.find? (fun node => graph.liesOnCycle node.id) = none := by
    simp
  have reverses : (∀ edge ∈ graph.edgesOf .overloads, graph.hasReverse edge = true) ↔
      (graph.edgesOf .overloads).find? (fun edge => !graph.hasReverse edge) = none := by
    simp
  rw [unviolated, parents, circles, reverses, violation?]
  cases graph.nodes.find? fun node => graph.parentCount node.id > 1 with
  | some node => simp
  | none =>
    cases graph.nodes.find? fun node => graph.liesOnCycle node.id with
    | some node => simp
    | none => cases (graph.edgesOf .overloads).find? fun edge => !graph.hasReverse edge <;> simp

/-- The shape of a finished graph is that of a forest of containment with mutual overloads. -/
theorem shaped_iff {graph : Graph} : graph.Shaped ↔
    (∀ first second member, graph.Related first .contains member →
      graph.Related second .contains member → first = second) ∧
      (∀ id, ¬ graph.Encloses id id) ∧
      ∀ first second, graph.Related first .overloads second →
        graph.Related second .overloads first :=
  ⟨fun shaped =>
      ⟨fun _ _ _ => shaped.single_scope, shaped.acyclic, fun _ _ => shaped.overloads_mutual⟩,
    fun ⟨single, straight, mutual_⟩ => ⟨single _ _ _, straight, mutual_ _ _⟩⟩

namespace Sound

variable {graph : Graph}

/-- A graph passes the check if and only if it is of the right shape. -/
theorem check_eq_ok_iff (sound : graph.Sound) : graph.check = .ok () ↔ graph.Shaped := by
  rw [check_eq_ok_iff_forall, shaped_iff, sound.single_scope_iff, sound.overloads_mutual_iff,
    ← sound.acyclic_iff]
  exact and_congr_right fun single => and_congr_left' (sound.liesOnCycle_eq_false_iff single)

/-- The shape of a graph as a scan of its nodes and edges tells it. -/
theorem shaped_iff_scan (sound : graph.Sound) : graph.Shaped ↔
    (∀ node ∈ graph.nodes, (graph.edges.filter fun edge =>
        edge.target = node.id ∧ edge.relation = .contains).length ≤ 1) ∧
      (∀ node ∈ graph.nodes, ¬ graph.Encloses node.id node.id) ∧
      ∀ edge ∈ graph.edges, edge.relation = .overloads → ∃ reverse ∈ graph.edges,
        reverse.source = edge.target ∧ reverse.target = edge.source ∧
          reverse.relation = .overloads := by
  have parents : ∀ id, graph.parentCount id = (graph.edges.filter fun edge =>
      edge.target = id ∧ edge.relation = .contains).length := fun id => by
    simp [parentCount, sound.incoming_eq_scan]
  have reverses : ∀ edge, graph.hasReverse edge = true ↔ ∃ reverse ∈ graph.edges,
      reverse.source = edge.target ∧ reverse.target = edge.source ∧
        reverse.relation = .overloads := fun edge => by
    rw [sound.hasReverse_iff, sound.related_iff]
    simp only [Edge.key, EdgeKey.mk.injEq, sound.mem_edges]
  rw [shaped_iff, ← sound.single_scope_iff, ← sound.acyclic_iff, ← sound.overloads_mutual_iff]
  simp [parents, reverses, edgesOf]

end Sound

/-- Whatever was asked of a graph before, it passes the check if and only if at most one edge of
containment enters every node, no node lies in itself, and every edge of an overload has a
reverse; and the walks that look for circles are not cut short. -/
theorem check_decides_shape (changes : List Change) :
    ((afterChanges changes).check = .ok () ↔
      (∀ node ∈ (afterChanges changes).nodes, ((afterChanges changes).edges.filter fun edge =>
          edge.target = node.id ∧ edge.relation = .contains).length ≤ 1) ∧
        (∀ node ∈ (afterChanges changes).nodes,
          ¬ (afterChanges changes).Encloses node.id node.id) ∧
        ∀ edge ∈ (afterChanges changes).edges, edge.relation = .overloads →
          ∃ reverse ∈ (afterChanges changes).edges, reverse.source = edge.target ∧
            reverse.target = edge.source ∧ reverse.relation = .overloads) ∧
      ∀ node ∈ (afterChanges changes).nodes, ∀ steps, (afterChanges changes).nodeCount ≤ steps →
        (afterChanges changes).outwardWalkRepeats steps [node.id] node.id =
          (afterChanges changes).liesOnCycle node.id := by
  have sound := sound_afterChanges changes
  refine ⟨sound.check_eq_ok_iff.trans sound.shaped_iff_scan, fun node listed steps enough => ?_⟩
  exact sound.liesOnCycle_eq_of_le (sound.mem_ids.mp (List.mem_map_of_mem listed)) enough

end Graph

end DeclGraph
