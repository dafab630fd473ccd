import DeclGraph.Linking.Overrides
import DeclGraph.Proofs.Catalogue.Region

/-!
# Candidates for overriding

A search for overridden methods passes bases breadth first, and a record that has a callable of
the name and the signature ends it there. Which records it passes does not depend on which of
the callables it accepts. So the search is a list of candidates, from which the accepted ones
are selected; and it gets to every record that inheritance leads to behind records without such
a callable, since its steps suffice for all edges.
-/

namespace DeclGraph

/-- A record is a direct base of a node. -/
def Graph.Derives (graph : Graph) (derived base : Nat) : Prop :=
  graph.Related derived .inherits base ∧
    ∃ node ∈ graph.nodes, node.id = base ∧ node.kind.isRecord

/-- A base is reached over one base after the other, all before the last of which are
passed. -/
inductive Graph.ReachesBase (graph : Graph) (passed : Nat → Prop) (start : Nat) : Nat → Prop where
  | direct {base : Nat} (derives : graph.Derives start base) : ReachesBase graph passed start base
  | behind {record base : Nat} (reached : ReachesBase graph passed start record)
    (through : passed record) (derives : graph.Derives record base) :
    ReachesBase graph passed start base

namespace Graph.ReachesBase

variable {graph other : Graph} {passed passedToo : Nat → Prop} {start base : Nat}

/-- What is reached as a base is the base of some record. -/
theorem exists_derives (reached : graph.ReachesBase passed start base) :
    ∃ derived, graph.Derives derived base := by
  cases reached with
  | direct derives => exact ⟨_, derives⟩
  | behind _ _ derives => exact ⟨_, derives⟩

/-- A reached base is reached wherever as much derives and is passed. -/
theorem imp (reached : graph.ReachesBase passed start base)
    (derives : ∀ {derived base : Nat}, graph.Derives derived base → other.Derives derived base)
    (through : ∀ {derived record : Nat}, graph.Derives derived record → passed record →
      passedToo record) : other.ReachesBase passedToo start base := by
  induction reached with
  | direct first => exact .direct (derives first)
  | behind reached isPassed next further =>
    obtain ⟨_, before⟩ := reached.exists_derives
    exact .behind further (through before isPassed) (derives next)

end Graph.ReachesBase

namespace Catalogue

variable (catalogue : Catalogue) (name signature : String)

/-- The callable of a name and a signature in a record. -/
def callableIn? (record : Nat) : Option Node :=
  catalogue.graph.nodeTable[record]?.bind (catalogue.callableOf? · name signature)

/-- The bases behind a record that a search goes on to. -/
def basesBehind (record : Nat) : List Nat :=
  if (catalogue.callableIn? name signature record).isSome then [] else catalogue.bases record

/-- The records that a search passes, in order. -/
def searched : Nat → List Nat → List Nat → List Nat
  | 0, _, _ => []
  | _ + 1, _, [] => []
  | steps + 1, passed, record :: queue =>
    if passed.contains record then searched steps passed queue
    else record ::
      searched steps (record :: passed) (queue ++ catalogue.basesBehind name signature record)

/-- The candidates that `accepts` accepts, asked one after the other. -/
def selected (accepts : Node → StateM OverrideMemo Bool) : List Node → StateM OverrideMemo (List Nat)
  | [] => return []
  | candidate :: rest => do
    let accepted ← accepts candidate
    let others ← selected accepts rest
    return if accepted then candidate.id :: others else others

/-- The callables in bases that a method may override, nearest bases first. -/
def candidates (method : Node) : List Node :=
  let name := method.key.name.simple
  let signature := method.key.signature.getD ""
  let record := catalogue.scopeOf method.id
  (catalogue.searched name signature (catalogue.graph.edgeCount + 1) [record]
    (catalogue.bases record)).filterMap (catalogue.callableIn? name signature)

variable {catalogue name signature}

/-- A record that is not in the graph has no bases. -/
theorem bases_eq_nil_of_missing (sound : catalogue.graph.Sound) {record : Nat}
    (missing : catalogue.graph.nodeTable[record]? = none) : catalogue.bases record = [] := by
  refine List.eq_nil_iff_forall_not_mem.mpr fun base isBase => ?_
  have related := related_of_mem_bases sound isBase
  obtain ⟨node, found⟩ := Graph.isSome_key?_iff.mp (sound.there_of_related related).1
  rw [missing] at found
  cases found

/-- A search selects from the callables in the records that it passes. -/
theorem searchOverridden_eq (sound : catalogue.graph.Sound)
    (accepts : Node → StateM OverrideMemo Bool) (steps : Nat) (passed queue : List Nat) :
    catalogue.searchOverridden name signature accepts steps passed queue =
      selected accepts ((catalogue.searched name signature steps passed queue).filterMap
        (catalogue.callableIn? name signature)) := by
  induction steps generalizing passed queue with
  | zero => rfl
  | succ steps further =>
    cases queue with
    | nil => rfl
    | cons record queue =>
      unfold searchOverridden searched
      split
      · exact further _ _
      · cases there : catalogue.graph.nodeTable[record]? with
        | none =>
          have nothing : catalogue.callableIn? name signature record = none := by
            simp [callableIn?, there]
          simp [nothing, basesBehind, bases_eq_nil_of_missing sound there, further]
        | some node =>
          cases found : catalogue.callableOf? node name signature with
          | none =>
            have nothing : catalogue.callableIn? name signature record = none := by
              simp [callableIn?, there, found]
            simp [found, nothing, basesBehind, further]
          | some candidate =>
            have here : catalogue.callableIn? name signature record = some candidate := by
              simp [callableIn?, there, found]
            rw [List.filterMap_cons_some here]
            simp only [found, here, basesBehind, Option.isSome_some, if_true, List.append_nil,
              further, selected]

/-- The bases of a record are those that it is derived from by an edge. -/
theorem mem_bases (sound : catalogue.graph.Sound) {record base : Nat} :
    base ∈ catalogue.bases record ↔ catalogue.graph.Derives record base := by
  rw [bases, List.mem_filter, sound.mem_targets, isRecord, kind?, Graph.Derives]
  refine and_congr_right fun _ => ?_
  cases found : catalogue.graph.nodeTable[base]? with
  | none =>
    simp only [Option.map_none, Option.any_none, Bool.false_eq_true, false_iff]
    rintro ⟨node, there, rfl, _⟩
    rw [sound.mem_nodes.mp there] at found
    cases found
  | some node =>
    have number := sound.node_id found
    constructor
    · intro isRecord
      refine ⟨node, sound.mem_nodes.mpr ?_, number, by simpa using isRecord⟩
      rwa [number]
    · rintro ⟨other, there, rfl, isRecord⟩
      rw [sound.mem_nodes.mp there] at found
      cases found
      simpa using isRecord

/-- The bases behind a record are some of its bases, in their order. -/
theorem basesBehind_sublist (catalogue : Catalogue) (name signature : String) (record : Nat) :
    (catalogue.basesBehind name signature record).Sublist (catalogue.bases record) := by
  unfold basesBehind
  split
  · exact List.nil_sublist _
  · exact List.Sublist.refl _

/-- A base behind a record is in the graph. -/
theorem hasNode_of_mem_basesBehind (sound : catalogue.graph.Sound) {record base : Nat}
    (behind : base ∈ catalogue.basesBehind name signature record) : catalogue.HasNode base :=
  hasNode_of_mem_bases sound ((catalogue.basesBehind_sublist name signature record).subset behind)

/-- The edges that searching a record uses up are enough for the bases behind it. -/
theorem length_queue_add_unsearched_le (name signature : String) (sound : catalogue.graph.Sound)
    (queue : List Nat) {record : Nat} {passed : List Nat} (new : record ∉ passed) :
    (queue ++ catalogue.basesBehind name signature record).length +
        (catalogue.unsearched (record :: passed)).length ≤
      queue.length + (catalogue.unsearched passed).length := by
  have used := length_bases_add_unsearched_le sound new
  have fewer := (catalogue.basesBehind_sublist name signature record).length_le
  rw [List.length_append]
  omega

/-- What a search passes is new and as everything in its queue and behind it. -/
theorem of_mem_searched (within : Nat → Prop)
    (behind : ∀ {record : Nat}, within record →
      ∀ base ∈ catalogue.basesBehind name signature record, within base)
    {steps : Nat} {passed queue : List Nat} (queued : ∀ record ∈ queue, within record)
    {record : Nat} (member : record ∈ catalogue.searched name signature steps passed queue) :
    within record ∧ record ∉ passed := by
  induction steps generalizing passed queue with
  | zero => cases member
  | succ steps further =>
    cases queue with
    | nil => cases member
    | cons first queue =>
      have here := queued first List.mem_cons_self
      have rest : ∀ other ∈ queue, within other := fun other listed =>
        queued other (List.mem_cons_of_mem _ listed)
      unfold searched at member
      split at member
      · exact further rest member
      · rename_i new
        rcases List.mem_cons.mp member with rfl | later
        · exact ⟨here, by simpa using new⟩
        · have queuedToo : ∀ other ∈ queue ++ catalogue.basesBehind name signature first,
              within other := by
            intro other listed
            rcases List.mem_append.mp listed with old | base
            · exact rest other old
            · exact behind here other base
          obtain ⟨held, newToo⟩ := further queuedToo later
          exact ⟨held, fun again => newToo (List.mem_cons_of_mem _ again)⟩

/-- With enough steps for the queue and all edges that were not searched, a search passes its
queue and the bases behind what it passes, but for what was passed before. -/
theorem searched_closed (name signature : String) (sound : catalogue.graph.Sound) {steps : Nat}
    {passed queue : List Nat}
    (enough : queue.length + (catalogue.unsearched passed).length < steps) :
    (∀ record ∈ queue,
        record ∈ passed ∨ record ∈ catalogue.searched name signature steps passed queue) ∧
      ∀ record ∈ catalogue.searched name signature steps passed queue,
        ∀ base ∈ catalogue.basesBehind name signature record,
          base ∈ passed ∨ base ∈ catalogue.searched name signature steps passed queue := by
  induction steps generalizing passed queue with
  | zero => omega
  | succ steps further =>
    cases queue with
    | nil => simp [searched]
    | cons first queue =>
      rw [List.length_cons] at enough
      unfold searched
      split
      · rename_i again
        have enoughLeft : queue.length + (catalogue.unsearched passed).length < steps := by omega
        obtain ⟨queued, behind⟩ := further enoughLeft
        refine ⟨fun record member => ?_, behind⟩
        rcases List.mem_cons.mp member with rfl | later
        · exact .inl (by simpa using again)
        · exact queued record later
      · rename_i new
        have used := length_queue_add_unsearched_le name signature sound queue
          (show first ∉ passed by simpa using new)
        have enoughLeft : (queue ++ catalogue.basesBehind name signature first).length +
            (catalogue.unsearched (first :: passed)).length < steps := by omega
        obtain ⟨queued, behind⟩ := further enoughLeft
        constructor
        · intro record member
          rcases List.mem_cons.mp member with rfl | later
          · exact .inr List.mem_cons_self
          · have known := queued record (List.mem_append_left _ later)
            simp only [List.mem_cons] at known ⊢
            tauto
        · intro record member base isBase
          have known : base ∈ first :: passed ∨ base ∈ catalogue.searched name signature steps
              (first :: passed) (queue ++ catalogue.basesBehind name signature first) := by
            rcases List.mem_cons.mp member with rfl | later
            · exact queued base (List.mem_append_right _ isBase)
            · exact behind record later base isBase
          simp only [List.mem_cons] at known ⊢
          tauto

/-- A search from the bases of a node passes the bases that are reached without passing a
callable of the name and the signature, but not the node. -/
theorem mem_searched (sound : catalogue.graph.Sound) {start record : Nat} :
    record ∈ catalogue.searched name signature (catalogue.graph.edgeCount + 1) [start]
        (catalogue.bases start) ↔
      record ≠ start ∧ catalogue.graph.ReachesBase
        (fun passed => catalogue.callableIn? name signature passed = none) start record := by
  have onward : ∀ {record base : Nat}, base ∈ catalogue.basesBehind name signature record ↔
      catalogue.callableIn? name signature record = none ∧
        catalogue.graph.Derives record base := by
    intro record base
    rw [← mem_bases sound, basesBehind]
    cases catalogue.callableIn? name signature record <;> simp
  constructor
  · intro member
    have found := of_mem_searched (catalogue.graph.ReachesBase
        (fun passed => catalogue.callableIn? name signature passed = none) start)
      (fun reached base isBase => .behind reached (onward.mp isBase).1 (onward.mp isBase).2)
      (fun base isBase => .direct ((mem_bases sound).mp isBase)) member
    exact ⟨by simpa using found.2, found.1⟩
  · rintro ⟨other, reached⟩
    obtain ⟨queued, behind⟩ :=
      searched_closed name signature sound (enough_for_bases sound start)
    -- The bases of the start itself are in the queue from the beginning.
    have all : ∀ {base : Nat}, catalogue.graph.ReachesBase
        (fun passed => catalogue.callableIn? name signature passed = none) start base →
        base = start ∨ base ∈ catalogue.searched name signature
          (catalogue.graph.edgeCount + 1) [start] (catalogue.bases start) := by
      intro base reached
      induction reached with
      | direct derives => simpa using queued _ ((mem_bases sound).mpr derives)
      | behind _ isPassed derives further =>
        rcases further with rfl | passed
        · simpa using queued _ ((mem_bases sound).mpr derives)
        · simpa using behind _ passed _ (onward.mpr ⟨isPassed, derives⟩)
    exact (all reached).resolve_left other

/-- The methods that one may override are the first that match it on some way up from its record. -/
theorem mem_candidates (sound : catalogue.graph.Sound) {method candidate : Node} :
    candidate ∈ catalogue.candidates method ↔
      ∃ record, record ≠ catalogue.scopeOf method.id ∧
        catalogue.graph.ReachesBase (fun passed => catalogue.callableIn? method.key.name.simple
          (method.key.signature.getD "") passed = none) (catalogue.scopeOf method.id) record ∧
        catalogue.callableIn? method.key.name.simple (method.key.signature.getD "") record =
          some candidate := by
  simp only [candidates, List.mem_filterMap, mem_searched sound, and_assoc]

/-- A callable in a record is a node of the graph under its key. -/
theorem callableIn?_eq_some (sound : catalogue.graph.Sound) {record : Nat} {candidate : Node} :
    catalogue.callableIn? name signature record = some candidate ↔
      catalogue.graph.nodeTable[candidate.id]? = some candidate ∧
        ∃ key, catalogue.graph.key? record = some key ∧
          candidate.key = .callable (key.name.child name) signature := by
  unfold callableIn? callableOf?
  simp only [Option.bind_eq_some_iff, Graph.key?_eq_some, sound.nodeByKey?_eq_some]
  constructor
  · rintro ⟨node, there, id, ⟨former, formerFound, carries⟩, found⟩
    obtain rfl := sound.node_id found
    rw [found] at formerFound
    cases formerFound
    exact ⟨found, node.key, ⟨node, there, rfl⟩, carries⟩
  · rintro ⟨found, _, ⟨node, there, rfl⟩, carries⟩
    exact ⟨node, there, candidate.id, ⟨candidate, found, carries⟩, found⟩

end Catalogue

end DeclGraph
