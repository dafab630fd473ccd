import DeclGraph.Catalogue.Relocation
import DeclGraph.Proofs.Graph.Reading

/-!
# Forests of scopes

Containment is a forest when no node lies in two scopes and a number can be
given to every node that grows from each scope to its members. In a forest nothing
lies inside itself, and the listing of a scope and everything below it is complete,
lists each node once, and lists every scope before its members.
-/

namespace DeclGraph

namespace Graph

/-- One node lies in another, directly or through scopes in between. -/
inductive Encloses (graph : Graph) (scope : Nat) : Nat → Prop where
  | directly {member : Nat} (related : graph.Related scope .contains member) :
    Encloses graph scope member
  | through {middle member : Nat} (outer : Encloses graph scope middle)
    (related : graph.Related middle .contains member) : Encloses graph scope member

/-- What lies around a scope lies around everything that the scope encloses. -/
theorem Encloses.outside {graph : Graph} {outer scope member : Nat}
    (encloses : graph.Encloses scope member) (related : graph.Related outer .contains scope) :
    graph.Encloses outer member := by
  induction encloses with
  | directly holds => exact .through (.directly related) holds
  | through _ holds outside => exact .through outside holds

/-- Containment in the graph is a forest, and `depth` grows from scopes to
members. -/
structure Forest (graph : Graph) (depth : Nat → Nat) : Prop where
  sound : graph.Sound
  single : ∀ {first second member : Nat}, graph.Related first .contains member →
    graph.Related second .contains member → first = second
  deeper : ∀ {scope member : Nat}, graph.Related scope .contains member →
    depth scope < depth member

namespace Forest

variable {graph : Graph} {depth : Nat → Nat}

/-- Nothing lies inside itself. -/
theorem not_encloses_self (forest : graph.Forest depth) (id : Nat) : ¬ graph.Encloses id id := by
  have deeper : ∀ {scope member : Nat}, graph.Encloses scope member →
      depth scope < depth member := by
    intro scope member encloses
    induction encloses with
    | directly related => exact forest.deeper related
    | through _ related further => exact Nat.lt_trans further (forest.deeper related)
  exact fun encloses => absurd (deeper encloses) (Nat.lt_irrefl _)

end Forest

end Graph

namespace Catalogue

/-- How far the listing of what lies below a scope has come: what was listed,
and what is known to be listed next. -/
structure Listing (graph : Graph) (depth : Nat → Nat) (start : Nat) (listed queue : List Nat) :
    Prop where
  nodup : (listed ++ queue).Nodup
  there : ∀ {id : Nat}, id ∈ listed ++ queue → (graph.key? id).isSome
  reached : ∀ id : Nat, id ∈ listed ++ queue →
    id = start ∨ ∃ scope ∈ listed, graph.Related scope .contains id
  closed : ∀ {scope id : Nat}, scope ∈ listed → graph.Related scope .contains id →
    id ∈ listed ++ queue
  ordered : (listed ++ queue).Pairwise fun earlier later => ¬ graph.Related later .contains earlier
  deep : ∀ id : Nat, id ∈ listed ++ queue → depth start ≤ depth id
  started : start ∈ listed ++ queue

namespace Listing

variable {graph : Graph} {depth : Nat → Nat} {start : Nat} {listed queue : List Nat}

/-- At the start the scope waits alone. -/
theorem initial (there : (graph.key? start).isSome) :
    Listing graph depth start [] [start] where
  nodup := by simp
  there := by simpa using there
  reached := by simp
  closed := by simp
  ordered := by simp
  deep := by simp
  started := by simp

/-- The members of the next scope in the queue are new to the listing. -/
theorem members_new (forest : graph.Forest depth) {scope : Nat}
    (listing : Listing graph depth start listed (scope :: queue)) {id : Nat}
    (related : graph.Related scope .contains id) : id ∉ listed ++ scope :: queue := by
  intro old
  have deepScope := listing.deep scope (by simp)
  have below := forest.deeper related
  obtain rfl | ⟨other, wasListed, holds⟩ := listing.reached _ old
  · exact absurd (Nat.lt_of_le_of_lt deepScope below) (Nat.lt_irrefl _)
  · have same := forest.single related holds
    subst same
    have nodup := listing.nodup
    rw [List.nodup_append] at nodup
    exact nodup.2.2 scope wasListed scope (by simp) rfl

/-- The listing goes on with the next scope of the queue. -/
theorem step (forest : graph.Forest depth) {scope : Nat}
    (listing : Listing graph depth start listed (scope :: queue)) :
    Listing graph depth start (listed ++ [scope]) (queue ++ graph.children scope) := by
  have sound := forest.sound
  have split : listed ++ [scope] ++ (queue ++ graph.children scope) =
      (listed ++ scope :: queue) ++ graph.children scope := by simp
  have members : ∀ {id}, id ∈ listed ++ [scope] ++ (queue ++ graph.children scope) ↔
      id ∈ listed ++ scope :: queue ∨ graph.Related scope .contains id := by
    intro id
    rw [split, List.mem_append, sound.mem_children]
  constructor
  case nodup =>
    rw [split, List.nodup_append]
    refine ⟨listing.nodup, sound.children_nodup scope, ?_⟩
    rintro id old _ new rfl
    exact listing.members_new forest (sound.mem_children.mp new) old
  case there =>
    intro id member
    obtain old | new := members.mp member
    · exact listing.there old
    · exact (sound.there_of_related new).2
  case reached =>
    intro id member
    obtain old | new := members.mp member
    · obtain rfl | ⟨other, wasListed, holds⟩ := listing.reached _ old
      · exact .inl rfl
      · exact .inr ⟨other, by simp [wasListed], holds⟩
    · exact .inr ⟨scope, by simp, new⟩
  case closed =>
    intro other id wasListed related
    rw [members]
    obtain before | now := List.mem_append.mp wasListed
    · exact .inl (listing.closed before related)
    · rw [List.mem_singleton] at now
      subst now
      exact .inr related
  case ordered =>
    rw [split, List.pairwise_append]
    have apart : ∀ {earlier later : Nat}, earlier ∈ listed ++ scope :: queue →
        graph.Related scope .contains later → ¬ graph.Related later .contains earlier := by
      intro earlier later old new holds
      obtain rfl | ⟨other, wasListed, otherHolds⟩ := listing.reached _ old
      · have deepScope := listing.deep scope (by simp)
        have one := forest.deeper new
        have two := forest.deeper holds
        omega
      · have same := forest.single holds otherHolds
        subst same
        exact listing.members_new forest new (List.mem_append_left _ wasListed)
    refine ⟨listing.ordered, ?_, ?_⟩
    · refine List.pairwise_of_forall_mem_list fun first firstMember second secondMember holds => ?_
      have firstHeld := sound.mem_children.mp firstMember
      have secondHeld := sound.mem_children.mp secondMember
      have same := forest.single holds firstHeld
      subst same
      exact absurd (forest.deeper secondHeld) (Nat.lt_irrefl _)
    · exact fun earlier old later new => apart old (sound.mem_children.mp new)
  case deep =>
    intro id member
    obtain old | new := members.mp member
    · exact listing.deep _ old
    · have deepScope := listing.deep scope (by simp)
      exact Nat.le_of_lt (Nat.lt_of_le_of_lt deepScope (forest.deeper new))
  case started => exact members.mpr (.inl listing.started)

/-- No listing is longer than the graph has nodes. -/
theorem length_le (listing : Listing graph depth start listed queue) :
    (listed ++ queue).length ≤ graph.nodeCount := by
  have inKeys : (listed ++ queue) ⊆ graph.nodeTable.keys := by
    intro id member
    obtain ⟨node, found⟩ := Graph.isSome_key?_iff.mp (listing.there member)
    rw [Std.ExtTreeMap.mem_keys, Std.ExtTreeMap.mem_iff_isSome_getElem?, found]
    rfl
  have count := listing.nodup.length_le_of_subset inKeys
  rwa [Std.ExtTreeMap.length_keys] at count

/-- Run for as many steps as the graph has nodes and one more, the listing comes
to its end. -/
theorem run (forest : graph.Forest depth)
    (listing : Listing graph depth start listed queue) (steps : Nat)
    (enough : graph.nodeCount < steps + listed.length) :
    Listing graph depth start (listed ++ listBelow graph steps queue) [] := by
  induction steps generalizing listed queue with
  | zero =>
    have short := listing.length_le
    rw [List.length_append] at short
    omega
  | succ steps further =>
    cases queue with
    | nil => simpa [listBelow] using listing
    | cons scope queue =>
      have next := further (listing.step forest) (by simp; omega)
      simpa [listBelow] using next

end Listing

/-- A scope of a forest with everything below it. -/
theorem listing_subtree {graph : Graph} {depth : Nat → Nat} (forest : graph.Forest depth)
    (start : Nat) (there : (graph.key? start).isSome) :
    Listing graph depth start (subtree graph start) [] := by
  have whole := (Listing.initial there).run forest (graph.nodeCount + 1) (by simp)
  simpa [subtree] using whole

/-- What is listed with a scope lies in it. -/
theorem encloses_of_mem_subtree {graph : Graph} {depth : Nat → Nat} (forest : graph.Forest depth)
    {start id : Nat} (there : (graph.key? start).isSome) (member : id ∈ subtree graph start) :
    id = start ∨ graph.Encloses start id := by
  have listing := listing_subtree forest start there
  induction deep : depth id using Nat.strongRecOn generalizing id with
  | _ _ shallower =>
    rcases listing.reached id (by simpa using member) with rfl | ⟨scope, listed, related⟩
    · exact .inl rfl
    · rcases shallower _ (deep ▸ forest.deeper related) listed rfl with rfl | outer
      · exact .inr (.directly related)
      · exact .inr (.through outer related)

end Catalogue

end DeclGraph
