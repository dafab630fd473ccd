import DeclGraph.Linking.Calls
import DeclGraph.Proofs.Linking.Noting

/-!
# The lines of calls

An edge between a caller and what it calls lists the lines of the calls, in increasing order
and each once. Linking a call adds its line to the edges that lead to what the call means,
and to no others.
-/

namespace DeclGraph

/-- The lines that an edge lists for calls. -/
def Edge.callLines (edge : Edge) : List Int64 :=
  (edge.attributes.ints? AttributeName.callLines).getD []

/-- What the edge of a call in a line carries. -/
def callAttributes (line : Int64) : Attributes :=
  (∅ : Attributes).insert AttributeName.callLines (.ints [line])

/-- Lines that are united are listed in increasing order. -/
theorem sortedUnion_lines (first second : List Int64) :
    (sortedUnion first second).Pairwise (· < ·) :=
  (sortedUnion_increasing first second).imp compareOfLessAndEq_eq_lt.mp

/-- One line united with none is a list of that line. -/
theorem sortedUnion_singleton (line : Int64) : sortedUnion [] [line] = [line] := by
  have nodup : (sortedUnion [] [line]).Nodup :=
    (sortedUnion_lines [] [line]).imp Int64.ne_of_lt
  exact List.perm_singleton.mp ((List.perm_ext_iff_of_nodup nodup (by simp)).mpr (by simp))

namespace Graph

/-- The attributes of the edge with given ends and relation. -/
def attributesOf? (graph : Graph) (key : EdgeKey) : Option Attributes :=
  (graph.edgeBetween? key.source key.target key.relation).map (·.attributes)

/-- The lines in which a node calls another one. -/
def callLines (graph : Graph) (source target : Nat) : List Int64 :=
  ((graph.attributesOf? ⟨source, target, .calls⟩).bind
    (·.ints? AttributeName.callLines)).getD []

/-- A node calls another one in a line. -/
def CallsAt (graph : Graph) (source target : Nat) (line : Int64) : Prop :=
  ∃ edge ∈ graph.edges, edge.key = ⟨source, target, .calls⟩ ∧ line ∈ edge.callLines

variable {graph : Graph} {key : EdgeKey} {attributes : Attributes}

/-- In a sound graph the attributes found under an edge key are those of the one edge that has it.
-/
theorem Sound.attributesOf?_eq_some (sound : graph.Sound) :
    graph.attributesOf? key = some attributes ↔
      ∃ edge ∈ graph.edges, edge.key = key ∧ edge.attributes = attributes := by
  simp only [attributesOf?, edgeBetween?, Option.map_eq_some_iff, Option.bind_eq_some_iff,
    sound.edgeIndex_iff, edgeKey?_eq_some, sound.mem_edges]
  constructor
  · rintro ⟨edge, ⟨id, ⟨other, found, same⟩, held⟩, rfl⟩
    rw [found] at held
    obtain rfl := Option.some.inj held
    obtain rfl := sound.edge_id found
    exact ⟨other, found, same, rfl⟩
  · rintro ⟨edge, found, same, rfl⟩
    exact ⟨edge, ⟨edge.id, ⟨edge, found, same⟩, found⟩, rfl⟩

/-- Relating two nodes changes the attributes of their edge and of no other. -/
theorem Sound.attributesOf?_withEdge (sound : graph.Sound) (other : EdgeKey) :
    (graph.withEdge key attributes).attributesOf? other =
      if key = other then
        some ((graph.attributesOf? other).elim attributes fun held => held.absorb attributes)
      else graph.attributesOf? other := by
  have unfolded : ∀ (graph : Graph) (key : EdgeKey), graph.attributesOf? key =
      (graph.edgeIndex[key]?.bind (graph.edgeTable[·]?)).map (·.attributes) := fun _ _ => rfl
  simp only [unfolded]
  cases known : graph.edgeIndex[key]? with
  | some id =>
    rw [withEdge_of_known known]
    have index : (graph.absorbing id attributes).edgeIndex = graph.edgeIndex := rfl
    have at_ := sound.edgeIndex_iff.mp known
    rw [index]
    by_cases same : key = other
    · subst same
      obtain ⟨edge, found, _⟩ := edgeKey?_eq_some.mp at_
      simp [known, edgeTable_absorbing, found]
    · rw [if_neg same]
      cases held : graph.edgeIndex[other]? with
      | none => rfl
      | some number =>
        have apart : id ≠ number := by
          rintro rfl
          have otherAt := sound.edgeIndex_iff.mp held
          rw [at_] at otherAt
          exact same (Option.some.inj otherAt)
        simp [edgeTable_absorbing, apart]
  | none =>
    rw [withEdge_of_fresh known]
    have index : (graph.addEdge key attributes).edgeIndex[other]? =
        if key = other then some graph.nextEdge else graph.edgeIndex[other]? := by
      simp [Graph.addEdge, Std.ExtTreeMap.getElem?_insert]
    rw [index]
    by_cases same : key = other
    · subst same
      simp [known, edgeTable_addEdge]
    · rw [if_neg same, if_neg same]
      cases held : graph.edgeIndex[other]? with
      | none => rfl
      | some number =>
        have old := sound.lt_of_edgeKey? (sound.edgeIndex_iff.mp held)
        show Option.map _ (graph.addEdge key attributes).edgeTable[number]? = _
        rw [edgeTable_addEdge, if_neg (Nat.ne_of_gt old)]
        rfl

/-- An edge of calls lists the lines in which its source calls its target. -/
theorem Sound.callLines_of_edge (sound : graph.Sound) {edge : Edge} (listed : edge ∈ graph.edges)
    (calls : edge.relation = .calls) :
    edge.callLines = graph.callLines edge.source edge.target := by
  have held : graph.attributesOf? ⟨edge.source, edge.target, .calls⟩ = some edge.attributes :=
    sound.attributesOf?_eq_some.mpr ⟨edge, listed, by rw [← calls]; rfl, rfl⟩
  rw [callLines, held]
  rfl

/-- A call is noted at a line exactly when the line stands among those of its edge. -/
theorem Sound.callsAt_iff (sound : graph.Sound) {source target : Nat} {line : Int64} :
    graph.CallsAt source target line ↔ line ∈ graph.callLines source target := by
  constructor
  · rintro ⟨edge, listed, ends, member⟩
    obtain ⟨rfl, rfl, calls⟩ := EdgeKey.mk.inj ends
    rwa [← sound.callLines_of_edge listed calls]
  · intro member
    cases held : graph.attributesOf? ⟨source, target, .calls⟩ with
    | none => simp [callLines, held] at member
    | some attributes =>
      obtain ⟨edge, listed, ends, rfl⟩ := sound.attributesOf?_eq_some.mp held
      refine ⟨edge, listed, ends, ?_⟩
      simpa [callLines, Edge.callLines, held] using member

/-- A call adds its line between its ends and changes no other lines. -/
theorem Sound.callLines_withCall (sound : graph.Sound) (caller callee source target : Nat)
    (line : Int64) :
    (graph.withEdge ⟨caller, callee, .calls⟩ (callAttributes line)).callLines source target =
      if caller = source ∧ callee = target then
        sortedUnion (graph.callLines source target) [line]
      else graph.callLines source target := by
  rw [callLines, sound.attributesOf?_withEdge]
  by_cases same : caller = source ∧ callee = target
  · obtain ⟨rfl, rfl⟩ := same
    rw [if_pos rfl, if_pos ⟨rfl, rfl⟩, callLines]
    cases graph.attributesOf? ⟨caller, callee, .calls⟩ with
    | none =>
      rw [Option.bind_none, Option.getD_none, sortedUnion_singleton]
      simp [callAttributes, Attributes.ints?, Value.ints?]
    | some held =>
      simp [callAttributes, Attributes.ints?, Attributes.getElem?_absorb, Attributes.absorbed,
        Value.ints?]
  · rw [if_neg fun ends => same ⟨congrArg EdgeKey.source ends, congrArg EdgeKey.target ends⟩,
      if_neg same, callLines]

end Graph

namespace Linking

variable {bonds : List Bond} {before after : Linking}

/-- Additions for other relations leave the attributes of an edge alone. -/
theorem Grows.attributesOf?_eq (grows : before.Grows bonds after)
    (start : before.catalogue.Housed []) {key : EdgeKey}
    (apart : ∀ bond ∈ bonds, bond.relation ≠ key.relation) :
    after.catalogue.graph.attributesOf? key = before.catalogue.graph.attributesOf? key := by
  induction grows with
  | refl => rfl
  | edge sofar among joins further =>
    refine ((sofar.housed start).sound.attributesOf?_withEdge key).trans ?_
    rw [if_neg, further]
    rintro rfl
    exact apart _ among joins.relation_eq.symm
  | standIn _ _ further => exact further
  | note _ _ further => exact further

/-- Additions for other reasons change no lines. -/
theorem Grows.callLines_eq (grows : before.Grows bonds after)
    (start : before.catalogue.Housed []) (apart : ∀ bond ∈ bonds, bond.relation ≠ .calls)
    (source target : Nat) :
    after.catalogue.graph.callLines source target =
      before.catalogue.graph.callLines source target := by
  rw [Graph.callLines, grows.attributesOf?_eq start apart, Graph.callLines]

end Linking

end DeclGraph
