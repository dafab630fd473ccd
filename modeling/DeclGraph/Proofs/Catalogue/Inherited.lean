import DeclGraph.Proofs.Catalogue.Members
import DeclGraph.Proofs.Catalogue.Shadowing
import DeclGraph.Proofs.Linking.Candidates
import DeclGraph.Proofs.Linking.Growth

/-!
# Inherited members

A record that has no accepted member of a name shows those of a base. Bases are searched breadth
first, and a record counts as searched only when its turn comes, so that it can wait in the queue
several times. What waits is always reached over one number of bases or over one more. So the
first record that shows anything is one of the nearest that do, whatever the hierarchy looks
like; and the search comes to every record of the hierarchy unless it ends there.
-/

namespace DeclGraph

/-- A record is reached over a number of bases, one after the other. Nothing keeps it from being
reached over different numbers of them, or from being reached from itself. -/
inductive Graph.DerivesIn (graph : Graph) (derived : Nat) : Nat → Nat → Prop where
  | itself : DerivesIn graph derived 0 derived
  | further {distance record base : Nat} (reached : DerivesIn graph derived distance record)
    (derives : graph.Derives record base) : DerivesIn graph derived (distance + 1) base

namespace Catalogue

section Histories

/-- A step in the history of a catalogue whose nodes may be related otherwise than by containment
too. -/
inductive LinkedStep where
  | request (request : Request)
  | relate (source target : Nat) (relation : Relation) (attributes : Attributes)
    (beside : relation ≠ .contains)

/-- The action of a step. -/
def LinkedStep.perform : LinkedStep → Action Unit
  | request asked => asked.perform
  | relate source target relation attributes _ =>
    Action.changing (fun graph => graph.connect source target relation attributes) >>=
      fun _ => pure ()

/-- The catalogue that a list of steps makes of the global namespace alone. A step that fails
leaves what it did before. -/
def afterLinkedSteps (steps : List LinkedStep) : Catalogue :=
  steps.foldl (fun catalogue step => (step.perform.run.run catalogue).2) empty

/-- Whatever relates the nodes otherwise, containment stays as the keys say. -/
theorem LinkedStep.keeps_housed (step : LinkedStep) : Action.Keeps (Housed · []) step.perform := by
  cases step with
  | request asked => exact asked.keeps_housed
  | relate source target relation attributes beside =>
    refine Action.keeps_bind (fun before housed => ?_) fun _ => Action.keeps_pure ()
    cases joined : before.graph.connect source target relation attributes with
    | error error => exact Action.ensures_changing_of_error joined housed
    | ok grown =>
      obtain ⟨graph, id⟩ := grown
      obtain ⟨sourceThere, targetThere, rfl⟩ := Graph.connect_eq_ok joined
      exact Action.ensures_changing joined (housed.withEdge sourceThere targetThere beside)

/-- Registering and linking bases leaves a housed catalogue. -/
theorem housed_afterLinkedSteps (steps : List LinkedStep) : (afterLinkedSteps steps).Housed [] := by
  unfold afterLinkedSteps
  refine List.foldlRecOn (motive := fun catalogue : Catalogue => catalogue.Housed []) steps _
    housed_empty ?_
  exact fun _ housed step _ => step.keeps_housed.after housed

end Histories

/-- What a lookup finds are the members of one of the nearest records that have any, or nothing
where no record of the hierarchy has any. -/
inductive Nearest (catalogue : Catalogue) (accept : Node → Bool) (name : String) (start : Nat) :
    List Nat → Prop where
  | nothing (silent : ∀ {distance record : Nat}, catalogue.graph.DerivesIn start distance record →
      catalogue.ownMembers none accept name record = []) : Nearest catalogue accept name start []
  | found {distance record : Nat} (reached : catalogue.graph.DerivesIn start distance record)
      (shown : catalogue.ownMembers none accept name record ≠ [])
      (silent : ∀ {nearer other : Nat}, nearer < distance →
        catalogue.graph.DerivesIn start nearer other →
          catalogue.ownMembers none accept name other = []) :
      Nearest catalogue accept name start (catalogue.ownMembers none accept name record)

/-- How far a search has come: it has passed records that show nothing, and those that it has
still to search are reached over some number of bases, the later ones over one more. -/
structure Searching (catalogue : Catalogue) (accept : Node → Bool) (name : String)
    (start distance : Nat) (passed near far : List Nat) : Prop where
  started : start ∈ passed
  silent : ∀ record ∈ passed, catalogue.ownMembers none accept name record = []
  near_reached : ∀ record ∈ near, catalogue.graph.DerivesIn start distance record
  far_reached : ∀ record ∈ far, catalogue.graph.DerivesIn start (distance + 1) record
  nearer_passed : ∀ {steps record : Nat}, steps < distance →
    catalogue.graph.DerivesIn start steps record → record ∈ passed
  level_known : ∀ {record : Nat}, catalogue.graph.DerivesIn start distance record →
    record ∈ passed ∨ record ∈ near
  closed : ∀ record ∈ passed, ∀ base ∈ catalogue.bases record,
    base ∈ passed ∨ base ∈ near ∨ base ∈ far

variable {catalogue : Catalogue} {accept : Node → Bool} {name : String}

namespace Searching

variable {start distance : Nat} {passed near far : List Nat}

/-- The search of the bases of a record that shows nothing itself. -/
theorem begun (sound : catalogue.graph.Sound)
    (nothing : catalogue.ownMembers none accept name start = []) :
    catalogue.Searching accept name start 0 [start] [] (catalogue.bases start) := by
  constructor
  case started => exact List.mem_singleton_self start
  case silent => simpa using nothing
  case near_reached => exact nofun
  case far_reached =>
    exact fun base isBase => .further .itself ((mem_bases sound).mp isBase)
  case nearer_passed => exact fun below => absurd below (Nat.not_lt_zero _)
  case level_known =>
    intro record reached
    cases reached
    exact .inl (List.mem_singleton_self start)
  case closed =>
    intro record isStart base isBase
    obtain rfl := List.mem_singleton.mp isStart
    exact .inr (.inr isBase)

/-- When a distance is searched, the records of the next one are in the queue. -/
theorem advanced (searching : catalogue.Searching accept name start distance passed [] far)
    (sound : catalogue.graph.Sound) :
    catalogue.Searching accept name start (distance + 1) passed far [] where
  started := searching.started
  silent := searching.silent
  near_reached := searching.far_reached
  far_reached := nofun
  nearer_passed {steps record} below reached := by
    rcases Nat.lt_succ_iff_lt_or_eq.mp below with before | rfl
    · exact searching.nearer_passed before reached
    · exact (searching.level_known reached).resolve_right List.not_mem_nil
  level_known {record} reached := by
    cases reached with
    | further before derives =>
      have isPassed := (searching.level_known before).resolve_right List.not_mem_nil
      simpa using searching.closed _ isPassed record ((mem_bases sound).mpr derives)
  closed record isPassed base isBase := by
    simpa using searching.closed record isPassed base isBase

/-- The first of a queue is reached over the smaller number of bases. -/
theorem exists_near (searching : catalogue.Searching accept name start distance passed near far)
    (sound : catalogue.graph.Sound) {record : Nat} {queue : List Nat}
    (waiting : near ++ far = record :: queue) :
    ∃ distance near far, queue = near ++ far ∧
      catalogue.Searching accept name start distance passed (record :: near) far := by
  cases near with
  | cons first near =>
    obtain ⟨rfl, rfl⟩ := List.cons.inj waiting
    exact ⟨distance, near, far, rfl, searching⟩
  | nil =>
    obtain rfl : far = record :: queue := waiting
    exact ⟨distance + 1, queue, [], (List.append_nil queue).symm, searching.advanced sound⟩

variable {record : Nat}

/-- A record that waited several times is left out when it is passed already. -/
theorem skipped
    (searching : catalogue.Searching accept name start distance passed (record :: near) far)
    (again : record ∈ passed) :
    catalogue.Searching accept name start distance passed near far where
  started := searching.started
  silent := searching.silent
  near_reached := fun other listed =>
    searching.near_reached other (List.mem_cons_of_mem _ listed)
  far_reached := searching.far_reached
  nearer_passed := searching.nearer_passed
  level_known {other} reached := by
    rcases searching.level_known reached with isPassed | waiting
    · exact .inl isPassed
    · rcases List.mem_cons.mp waiting with rfl | later
      · exact .inl again
      · exact .inr later
  closed other isPassed base isBase := by
    have known := searching.closed other isPassed base isBase
    simp only [List.mem_cons] at known
    rcases known with before | (rfl | later) | behind
    · exact .inl before
    · exact .inl again
    · exact .inr (.inl later)
    · exact .inr (.inr behind)

/-- Behind a record that shows nothing, its bases wait. -/
theorem stepped
    (searching : catalogue.Searching accept name start distance passed (record :: near) far)
    (sound : catalogue.graph.Sound)
    (nothing : catalogue.ownMembers none accept name record = []) :
    catalogue.Searching accept name start distance (record :: passed) near
      (far ++ catalogue.bases record) where
  started := List.mem_cons_of_mem _ searching.started
  silent := List.forall_mem_cons.mpr ⟨nothing, searching.silent⟩
  near_reached := fun other listed =>
    searching.near_reached other (List.mem_cons_of_mem _ listed)
  far_reached other listed := by
    rcases List.mem_append.mp listed with before | isBase
    · exact searching.far_reached other before
    · exact .further (searching.near_reached record List.mem_cons_self)
        ((mem_bases sound).mp isBase)
  nearer_passed := fun below reached =>
    List.mem_cons_of_mem _ (searching.nearer_passed below reached)
  level_known {other} reached := by
    have known := searching.level_known reached
    simp only [List.mem_cons] at known ⊢
    tauto
  closed other isPassed base isBase := by
    simp only [List.mem_cons, List.mem_append]
    rcases List.mem_cons.mp isPassed with rfl | before
    · exact .inr (.inr (.inr isBase))
    · have known := searching.closed other before base isBase
      simp only [List.mem_cons] at known
      tauto

/-- When nothing waits any more, every record of the hierarchy is passed. -/
theorem all_passed (searching : catalogue.Searching accept name start distance passed [] [])
    (sound : catalogue.graph.Sound) {steps : Nat}
    (reached : catalogue.graph.DerivesIn start steps record) : record ∈ passed := by
  induction reached with
  | itself => exact searching.started
  | further _ derives before =>
    simpa using searching.closed _ before _ ((mem_bases sound).mpr derives)

/-- With enough steps for the queue and all edges that were not searched, a search finds the
members of a nearest record. -/
theorem nearest (sound : catalogue.graph.Sound) {steps : Nat}
    (searching : catalogue.Searching accept name start distance passed near far)
    (enough : (near ++ far).length + (catalogue.unsearched passed).length < steps) :
    catalogue.Nearest accept name start
      (catalogue.searchBases none accept name steps passed (near ++ far)) := by
  induction steps generalizing distance passed near far with
  | zero => omega
  | succ steps further =>
    cases waiting : near ++ far with
    | nil =>
      obtain ⟨rfl, rfl⟩ := List.append_eq_nil_iff.mp waiting
      exact .nothing fun reached =>
        searching.silent _ (searching.all_passed sound reached)
    | cons record queue =>
      rw [waiting, List.length_cons] at enough
      obtain ⟨distance, near, far, rfl, searching⟩ := searching.exists_near sound waiting
      unfold searchBases
      by_cases again : record ∈ passed
      · rw [if_pos (List.contains_iff_mem.mpr again)]
        exact further (searching.skipped again) (by omega)
      · rw [if_neg fun contained => again (List.contains_iff_mem.mp contained)]
        by_cases nothing : catalogue.ownMembers none accept name record = []
        · have used := length_bases_add_unsearched_le sound again
          simp only [nothing, List.isEmpty_nil, if_true]
          rw [List.append_assoc]
          refine further (searching.stepped sound nothing) ?_
          simp only [List.length_append] at enough ⊢
          omega
        · simp only [List.isEmpty_iff, nothing, if_false]
          exact .found (searching.near_reached record List.mem_cons_self) nothing
            fun below reached => searching.silent _ (searching.nearer_passed below reached)

end Searching

/-- A lookup in a record finds the members of a nearest record, since the edges of the graph are
enough for its search. -/
theorem nearest_lookupMember (sound : catalogue.graph.Sound) {scope : Nat}
    (isRecord : catalogue.isRecord scope) :
    catalogue.Nearest accept name scope (catalogue.lookupMember accept name scope) := by
  unfold lookupMember visibleMembers
  by_cases nothing : catalogue.ownMembers none accept name scope = []
  · simp only [nothing, List.isEmpty_nil, isRecord, Bool.and_self, if_true]
    exact (Searching.begun sound nothing).nearest sound (enough_for_bases sound scope)
  · simp only [List.isEmpty_iff, nothing, Bool.and_eq_true, false_and, if_false]
    exact .found .itself nothing fun below => absurd below (Nat.not_lt_zero _)

namespace Nearest

variable {start : Nat} {result : List Nat}

/-- No member is nearest exactly when none is inherited at any distance. -/
theorem eq_nil_iff (nearest : catalogue.Nearest accept name start result)
    (housed : catalogue.Housed []) :
    result = [] ↔ ∀ distance record id, catalogue.graph.DerivesIn start distance record →
      ¬ catalogue.HasMember accept name record id := by
  cases nearest with
  | nothing silent =>
    exact iff_of_true rfl fun _ _ id reached => housed.ownMembers_eq_nil.mp (silent reached) id
  | found reached shown _ =>
    exact iff_of_false shown fun none => shown (housed.ownMembers_eq_nil.mpr fun id =>
      none _ _ id reached)

/-- Nearest members are those of one record, and no nearer record has any. -/
theorem exists_record (nearest : catalogue.Nearest accept name start result)
    (housed : catalogue.Housed []) (shown : result ≠ []) :
    ∃ distance record, catalogue.graph.DerivesIn start distance record ∧
      (∀ nearer other id, catalogue.graph.DerivesIn start nearer other →
        catalogue.HasMember accept name other id → distance ≤ nearer) ∧
      result.Nodup ∧ ∀ id, id ∈ result ↔ catalogue.HasMember accept name record id := by
  cases nearest with
  | nothing _ => exact absurd rfl shown
  | @found distance record reached _ silent =>
    refine ⟨distance, record, reached, fun nearer other id otherReached member => ?_,
      housed.nodup_ownMembers record, fun id => housed.mem_ownMembers⟩
    by_contra below
    exact housed.ownMembers_eq_nil.mp (silent (Nat.lt_of_not_le below) otherReached) id member

end Nearest

/-- However nodes are declared and related, a lookup in a record finds nothing exactly if no
record of its hierarchy has an accepted member of the name, and otherwise the accepted members
of one record, nearest among those that have any. -/
theorem lookupMember_exact (steps : List LinkedStep) (accept : Node → Bool) (name : String)
    {scope : Nat} (isRecord : (afterLinkedSteps steps).isRecord scope) :
    ((afterLinkedSteps steps).lookupMember accept name scope = [] ↔
      ∀ distance record id, (afterLinkedSteps steps).graph.DerivesIn scope distance record →
        ¬ (afterLinkedSteps steps).HasMember accept name record id) ∧
    ((afterLinkedSteps steps).lookupMember accept name scope ≠ [] →
      ∃ distance record, (afterLinkedSteps steps).graph.DerivesIn scope distance record ∧
        (∀ nearer other id, (afterLinkedSteps steps).graph.DerivesIn scope nearer other →
          (afterLinkedSteps steps).HasMember accept name other id → distance ≤ nearer) ∧
        ((afterLinkedSteps steps).lookupMember accept name scope).Nodup ∧
        ∀ id, id ∈ (afterLinkedSteps steps).lookupMember accept name scope ↔
          (afterLinkedSteps steps).HasMember accept name record id) := by
  have housed := housed_afterLinkedSteps steps
  have nearest := @nearest_lookupMember _ accept name housed.sound _ isRecord
  exact ⟨nearest.eq_nil_iff housed, nearest.exists_record housed⟩

section Diamond

/-- The record `D` derives from `B` and `C`, and both derive from `A`, which derives from `D`
again. There is a field `m` in `C` and one in `A`. -/
def diamond : List LinkedStep :=
  [.request (.register (scopeMention ["D"] .structRecord false)),
    .request (.register (scopeMention ["B"] .structRecord false)),
    .request (.register (scopeMention ["C"] .classRecord false)),
    .request (.register (scopeMention ["A"] .structRecord false)),
    .request (.register ⟨.field ⟨["A", "m"]⟩, .field, ∅, true, false⟩),
    .request (.register ⟨.field ⟨["C", "m"]⟩, .field, ∅, true, false⟩),
    .relate 1 2 .inherits ∅ nofun, .relate 1 3 .inherits ∅ nofun,
    .relate 2 4 .inherits ∅ nofun, .relate 3 4 .inherits ∅ nofun,
    .relate 4 1 .inherits ∅ nofun]

/-- The field of `C` is found from `D`, before that of `A`. -/
theorem lookupMember_exact_diamond :
    (afterLinkedSteps diamond).isRecord 1 ∧
      (afterLinkedSteps diamond).lookupMember (fun _ => true) "m" 1 = [6] ∧
      ∃ distance record, (afterLinkedSteps diamond).graph.DerivesIn 1 distance record ∧
        (∀ nearer other id, (afterLinkedSteps diamond).graph.DerivesIn 1 nearer other →
          (afterLinkedSteps diamond).HasMember (fun _ => true) "m" other id → distance ≤ nearer) ∧
        ((afterLinkedSteps diamond).lookupMember (fun _ => true) "m" 1).Nodup ∧
        ∀ id, id ∈ (afterLinkedSteps diamond).lookupMember (fun _ => true) "m" 1 ↔
          (afterLinkedSteps diamond).HasMember (fun _ => true) "m" record id := by
  have isRecord : (afterLinkedSteps diamond).isRecord 1 := by decide +kernel
  have found : (afterLinkedSteps diamond).lookupMember (fun _ => true) "m" 1 = [6] := by
    decide +kernel
  exact ⟨isRecord, found,
    (lookupMember_exact diamond (fun _ => true) "m" isRecord).2 (by rw [found]; simp)⟩

end Diamond

end Catalogue

end DeclGraph
