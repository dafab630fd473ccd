import DeclGraph.Proofs.Linking.Candidates
import Mathlib.Logic.Relation

/-!
# The memo of overrides

Of its candidates a method overrides those that it or they are marked for, and those that
override something themselves; which is asked of them in turn. A method that is asked for while
it is being worked out answers that it overrides nothing, and what others conclude from that
stays in the memo. So the memo never lists more than a method overrides, and it lists all of it
as long as nothing that the method leads to is asked for in a circle.
-/

namespace DeclGraph

namespace Node

/-- The node is a method of objects, not of a record as such. -/
def IsInstanceMethod (node : Node) : Prop :=
  node.kind = .method ∧ node.attributes.isSet AttributeName.isStatic = false

/-- A method is marked as overriding, or a base method as one to be overridden. -/
def MarksOverride (method base : Node) : Prop :=
  method.attributes.isSet AttributeName.isOverride ∨
    base.attributes.isSet AttributeName.isVirtual ∨ base.attributes.isSet AttributeName.isOverride

end Node

namespace Catalogue

section Keeping

variable {α β : Type} {invariant : OverrideMemo → Prop}

/-- Started with a memo as `invariant` has it, the computation gives a result as
`post` has it and such a memo again. -/
def Keeps (invariant : OverrideMemo → Prop) (step : StateM OverrideMemo α) (post : α → Prop) :
    Prop :=
  ∀ memo, invariant memo → post (step.run memo).1 ∧ invariant (step.run memo).2

/-- A value that is given without looking at the memo keeps its invariant. -/
theorem keeps_pure {value : α} {post : α → Prop} (held : post value) :
    Keeps invariant (pure value) post := fun _ kept => ⟨held, kept⟩

/-- Two computations keep an invariant when each does. -/
theorem keeps_bind {first : StateM OverrideMemo β} {next : β → StateM OverrideMemo α}
    {middle : β → Prop} {post : α → Prop} (firstKeeps : Keeps invariant first middle)
    (nextKeeps : ∀ value, middle value → Keeps invariant (next value) post) :
    Keeps invariant (first >>= next) post := by
  intro memo kept
  obtain ⟨held, keptMiddle⟩ := firstKeeps memo kept
  exact nextKeeps _ held _ keptMiddle

/-- Reading the memo keeps its invariant, which may be used of what was read. -/
theorem keeps_get_bind {next : OverrideMemo → StateM OverrideMemo α} {post : α → Prop}
    (nextKeeps : ∀ memo, invariant memo → Keeps invariant (next memo) post) :
    Keeps invariant (get >>= next) post :=
  fun memo kept => nextKeeps memo kept memo kept

/-- A change that keeps the invariant may be made. -/
theorem keeps_modify {change : OverrideMemo → OverrideMemo}
    (changeKeeps : ∀ memo, invariant memo → invariant (change memo)) :
    Keeps invariant (modify change) fun _ => True :=
  fun memo kept => ⟨trivial, changeKeeps memo kept⟩

/-- Computing for each item of a list keeps what computing for one does. -/
theorem keeps_mapM {items : List β} {step : β → StateM OverrideMemo α} {post : β → α → Prop}
    (each : ∀ item ∈ items, Keeps invariant (step item) (post item)) :
    Keeps invariant (items.mapM step) (List.Forall₂ post items) := by
  induction items with
  | nil => exact keeps_pure .nil
  | cons item rest further =>
    rw [List.mapM_cons]
    refine keeps_bind (each item List.mem_cons_self) fun first held => ?_
    exact keeps_bind (further fun other member => each other (List.mem_cons_of_mem _ member))
      fun others heldToo => keeps_pure (.cons held heldToo)

/-- The numbers of some of the candidates, in their order, each taken or left as it may be. -/
inductive Selects (mayBe : Node → Bool → Prop) : List Node → List Nat → Prop where
  | nil : Selects mayBe [] []
  | taken {candidate : Node} {rest : List Node} {found : List Nat}
    (accepted : mayBe candidate true) (others : Selects mayBe rest found) :
    Selects mayBe (candidate :: rest) (candidate.id :: found)
  | left {candidate : Node} {rest : List Node} {found : List Nat}
    (rejected : mayBe candidate false) (others : Selects mayBe rest found) :
    Selects mayBe (candidate :: rest) found

namespace Selects

variable {mayBe : Node → Bool → Prop} {candidates : List Node} {found : List Nat}

/-- What is selected is a candidate that may be accepted. -/
theorem exists_of_mem (selects : Selects mayBe candidates found) {id : Nat} (member : id ∈ found) :
    ∃ candidate ∈ candidates, candidate.id = id ∧ mayBe candidate true := by
  induction selects with
  | nil => cases member
  | taken accepted _ further =>
    rcases List.mem_cons.mp member with rfl | later
    · exact ⟨_, List.mem_cons_self, rfl, accepted⟩
    · obtain ⟨candidate, among, held⟩ := further later
      exact ⟨candidate, List.mem_cons_of_mem _ among, held⟩
  | left _ _ further =>
    obtain ⟨candidate, among, held⟩ := further member
    exact ⟨candidate, List.mem_cons_of_mem _ among, held⟩

/-- A candidate that cannot be refused is selected. -/
theorem mem_of_mem (selects : Selects mayBe candidates found) {candidate : Node}
    (among : candidate ∈ candidates) (needed : ¬ mayBe candidate false) :
    candidate.id ∈ found := by
  induction selects with
  | nil => cases among
  | taken _ _ further =>
    rcases List.mem_cons.mp among with rfl | later
    · exact List.mem_cons_self
    · exact List.mem_cons_of_mem _ (further later)
  | left rejected _ further =>
    rcases List.mem_cons.mp among with rfl | later
    · exact absurd rejected needed
    · exact further later

/-- There is one selection where each candidate may be only one of taken and left. -/
theorem unique {other : List Nat} (selects : Selects mayBe candidates found)
    (selectsToo : Selects mayBe candidates other)
    (decided : ∀ candidate ∈ candidates, ¬ (mayBe candidate true ∧ mayBe candidate false)) :
    found = other := by
  induction selects generalizing other with
  | nil =>
    cases selectsToo
    rfl
  | taken accepted _ further =>
    cases selectsToo with
    | taken _ others =>
      rw [further others fun candidate among => decided candidate (List.mem_cons_of_mem _ among)]
    | left rejected _ => exact absurd ⟨accepted, rejected⟩ (decided _ List.mem_cons_self)
  | left rejected _ further =>
    cases selectsToo with
    | taken accepted _ => exact absurd ⟨accepted, rejected⟩ (decided _ List.mem_cons_self)
    | left _ others =>
      exact further others fun candidate among => decided candidate (List.mem_cons_of_mem _ among)

end Selects

/-- Selecting candidates keeps an invariant that trying each does. -/
theorem keeps_selected {accepts : Node → StateM OverrideMemo Bool} {candidates : List Node}
    (mayBe : Node → Bool → Prop)
    (each : ∀ candidate ∈ candidates, Keeps invariant (accepts candidate) (mayBe candidate)) :
    Keeps invariant (selected accepts candidates) (Selects mayBe candidates) := by
  induction candidates with
  | nil => exact keeps_pure .nil
  | cons candidate rest further =>
    refine keeps_bind (each candidate List.mem_cons_self) fun accepted held => ?_
    refine keeps_bind (further fun other among => each other (List.mem_cons_of_mem _ among))
      fun found selects => keeps_pure ?_
    cases accepted
    · exact .left held selects
    · exact .taken held selects

/-- Whether a candidate is overridden is asked only when its marks do not tell. -/
theorem keeps_isOverridden {method candidate : Node} {inherited : Nat → StateM OverrideMemo Bool}
    {post : Bool → Prop} (unfit : ¬ candidate.IsInstanceMethod → post false)
    (marked : candidate.IsInstanceMethod → method.MarksOverride candidate → post true)
    (asked : candidate.IsInstanceMethod → ¬ method.MarksOverride candidate →
      Keeps invariant (inherited candidate.id) post) :
    Keeps invariant
      (isOverridden (method.attributes.isSet AttributeName.isOverride) inherited candidate)
      post := by
  have fits : candidate.IsInstanceMethod ↔ ¬ (candidate.kind ≠ .method ∨
      candidate.attributes.isSet AttributeName.isStatic) := by
    simp [Node.IsInstanceMethod]
  have marks : method.MarksOverride candidate ↔
      (method.attributes.isSet AttributeName.isOverride ||
        candidate.attributes.isSet AttributeName.isVirtual ||
        candidate.attributes.isSet AttributeName.isOverride) = true := by
    simp [Node.MarksOverride, or_assoc]
  unfold isOverridden
  split
  · rename_i unfits
    exact keeps_pure (unfit fun instance_ => fits.mp instance_ unfits)
  · rename_i fit
    split
    · rename_i isMarked
      exact keeps_pure (marked (fits.mpr fit) (marks.mpr isMarked))
    · rename_i unmarked
      exact asked (fits.mpr fit) fun isMarked => unmarked (marks.mp isMarked)

end Keeping

/-- A method overrides the candidates among the instance methods that are marked for it or
override something themselves. -/
inductive Overrides (catalogue : Catalogue) : Nat → Nat → Prop where
  | marked {method base : Node} (found : catalogue.graph.nodeTable[method.id]? = some method)
    (among : base ∈ catalogue.candidates method) (ofObjects : base.IsInstanceMethod)
    (marks : method.MarksOverride base) : Overrides catalogue method.id base.id
  | inherited {method base : Node} {further : Nat}
    (found : catalogue.graph.nodeTable[method.id]? = some method)
    (among : base ∈ catalogue.candidates method) (ofObjects : base.IsInstanceMethod)
    (overrides : Overrides catalogue base.id further) : Overrides catalogue method.id base.id

/-- Whether a method overrides a candidate hangs on what the candidate overrides. -/
inductive Asks (catalogue : Catalogue) : Nat → Nat → Prop where
  | unmarked {method base : Node} (found : catalogue.graph.nodeTable[method.id]? = some method)
    (among : base ∈ catalogue.candidates method) (ofObjects : base.IsInstanceMethod)
    (unmarked : ¬ method.MarksOverride base) : Asks catalogue method.id base.id

/-- Nothing that is asked for on behalf of a method is asked for on its own behalf. -/
def AsksInNoCircle (catalogue : Catalogue) (method : Nat) : Prop :=
  ∀ ⦃other : Nat⦄, Relation.ReflTransGen catalogue.Asks method other →
    ¬ Relation.TransGen catalogue.Asks other other

/-- A candidate counts among what a method overrides. -/
def IsOverridden (catalogue : Catalogue) (method base : Node) : Prop :=
  base.IsInstanceMethod ∧
    (method.MarksOverride base ∨ ∃ further, catalogue.Overrides base.id further)

/-- A candidate is accepted only if it is overridden, and then at least where marks tell or
nothing is asked for in a circle. -/
structure Judges (catalogue : Catalogue) (method base : Node) (accepted : Bool) : Prop where
  justified : accepted = true → catalogue.IsOverridden method base
  exhaustive : catalogue.IsOverridden method base →
    method.MarksOverride base ∨ catalogue.AsksInNoCircle method.id → accepted = true

/-- The list of what a method overrides was selected from its candidates. -/
def WorkedOut (catalogue : Catalogue) (method : Nat) (found : List Nat) : Prop :=
  ∀ ⦃node : Node⦄, catalogue.graph.nodeTable[method]? = some node →
    Selects (catalogue.Judges node) (catalogue.candidates node) found

/-- All lists in a memo were worked out. -/
def AllWorkedOut (catalogue : Catalogue) (memo : OverrideMemo) : Prop :=
  ∀ ⦃method : Nat⦄ ⦃found : List Nat⦄, memo[method]? = some found →
    catalogue.WorkedOut method found

variable {catalogue : Catalogue} {method : Nat} {found other : List Nat}

/-- A method overrides the candidates that are overridden by it. -/
theorem overrides_iff {method : Node} {id : Nat}
    (held : catalogue.graph.nodeTable[method.id]? = some method) :
    catalogue.Overrides method.id id ↔
      ∃ base ∈ catalogue.candidates method, base.id = id ∧ catalogue.IsOverridden method base := by
  constructor
  · intro overrides
    generalize number : method.id = overrider at overrides
    cases overrides with
    | marked heldToo among ofObjects marks =>
      rw [← number, held] at heldToo
      cases heldToo
      exact ⟨_, among, rfl, ofObjects, .inl marks⟩
    | inherited heldToo among ofObjects further =>
      rw [← number, held] at heldToo
      cases heldToo
      exact ⟨_, among, rfl, ofObjects, .inr ⟨_, further⟩⟩
  · rintro ⟨base, among, rfl, ofObjects, marks | ⟨further, overrides⟩⟩
    · exact .marked held among ofObjects marks
    · exact .inherited held among ofObjects overrides

/-- What a method outside the circles asks is outside them. -/
theorem AsksInNoCircle.of_asks (noCircle : catalogue.AsksInNoCircle method) {base : Nat}
    (asks : catalogue.Asks method base) : catalogue.AsksInNoCircle base :=
  fun _ reached => noCircle (.head asks reached)

namespace WorkedOut

/-- What is worked out for a method overrides it truly. -/
theorem overrides (sound : catalogue.graph.Sound) (there : catalogue.HasNode method)
    (settled : catalogue.WorkedOut method found) {id : Nat} (member : id ∈ found) :
    catalogue.Overrides method id := by
  obtain ⟨node, held⟩ := Graph.isSome_key?_iff.mp there
  obtain rfl := sound.node_id held
  obtain ⟨base, among, number, judges⟩ := (settled held).exists_of_mem member
  exact (overrides_iff held).mpr ⟨base, among, number, judges.justified rfl⟩

/-- A candidate that the marks of a method settle is among what is worked out. -/
theorem mem_of_marks {node base : Node} (settled : catalogue.WorkedOut node.id found)
    (held : catalogue.graph.nodeTable[node.id]? = some node)
    (among : base ∈ catalogue.candidates node) (ofObjects : base.IsInstanceMethod)
    (marks : node.MarksOverride base) : base.id ∈ found :=
  (settled held).mem_of_mem among fun judges =>
    nomatch judges.exhaustive ⟨ofObjects, .inl marks⟩ (.inl marks)

/-- Outside the circles everything that a method overrides is worked out. -/
theorem mem_of_overrides (sound : catalogue.graph.Sound)
    (settled : catalogue.WorkedOut method found) (noCircle : catalogue.AsksInNoCircle method)
    {id : Nat} (overrides : catalogue.Overrides method id) : id ∈ found := by
  obtain ⟨node, held⟩ : ∃ node, catalogue.graph.nodeTable[method]? = some node := by
    cases overrides with
    | marked held => exact ⟨_, held⟩
    | inherited held => exact ⟨_, held⟩
  obtain rfl := sound.node_id held
  obtain ⟨base, among, rfl, isOverridden⟩ := (overrides_iff held).mp overrides
  exact (settled held).mem_of_mem among fun judges =>
    nomatch judges.exhaustive isOverridden (.inr noCircle)

/-- Where nothing is asked for in a circle, there is one way to work a method out. -/
theorem unique (sound : catalogue.graph.Sound) (there : catalogue.HasNode method)
    (settled : catalogue.WorkedOut method found) (settledToo : catalogue.WorkedOut method other)
    (noCircle : catalogue.AsksInNoCircle method) : found = other := by
  obtain ⟨node, held⟩ := Graph.isSome_key?_iff.mp there
  obtain rfl := sound.node_id held
  refine (settled held).unique (settledToo held) fun base _ ⟨accepted, rejected⟩ => ?_
  exact nomatch rejected.exhaustive (accepted.justified rfl) (.inr noCircle)

end WorkedOut

/-- A candidate is in the graph. -/
theorem hasNode_of_mem_candidates (sound : catalogue.graph.Sound) {method base : Node}
    (among : base ∈ catalogue.candidates method) : catalogue.HasNode base.id := by
  obtain ⟨record, _, _, found⟩ := (mem_candidates sound).mp among
  exact Graph.isSome_key?_iff.mpr ⟨base, ((callableIn?_eq_some sound).mp found).1⟩

/-- What a method overrides is in the graph. -/
theorem Overrides.hasNode (sound : catalogue.graph.Sound) {id : Nat}
    (overrides : catalogue.Overrides method id) : catalogue.HasNode id := by
  cases overrides with
  | marked _ among => exact hasNode_of_mem_candidates sound among
  | inherited _ among => exact hasNode_of_mem_candidates sound among

/-- Nothing is wrong in an empty memo. -/
theorem allWorkedOut_empty (catalogue : Catalogue) : catalogue.AllWorkedOut ∅ := by
  intro method found listed
  simp at listed

/-- A memo stays right when a right entry is added. -/
theorem AllWorkedOut.insert {memo : OverrideMemo} (kept : catalogue.AllWorkedOut memo)
    (settled : catalogue.WorkedOut method found) :
    catalogue.AllWorkedOut (memo.insert method found) := by
  intro other others listed
  rw [Std.ExtTreeMap.getElem?_insert] at listed
  split at listed
  · rename_i same
    obtain rfl : method = other := by simpa using same
    cases listed
    exact settled
  · exact kept listed

/-- A candidate without marks is judged by whether anything was found that it overrides. -/
theorem judges_of_asked (sound : catalogue.graph.Sound) {node base : Node}
    (held : catalogue.graph.nodeTable[node.id]? = some node)
    (among : base ∈ catalogue.candidates node) (ofObjects : base.IsInstanceMethod)
    (unmarked : ¬ node.MarksOverride base)
    (justified : ∀ id ∈ found, catalogue.Overrides base.id id)
    (settled : catalogue.AsksInNoCircle node.id → catalogue.WorkedOut base.id found) :
    catalogue.Judges node base (!found.isEmpty) := by
  constructor
  case justified =>
    intro some_
    cases found with
    | nil => cases some_
    | cons further _ => exact ⟨ofObjects, .inr ⟨further, justified further List.mem_cons_self⟩⟩
  case exhaustive =>
    intro isOverridden told
    have noCircle := told.resolve_left unmarked
    obtain ⟨further, overrides⟩ := isOverridden.2.resolve_left unmarked
    have asks : catalogue.Asks node.id base.id := .unmarked held among ofObjects unmarked
    have member := (settled noCircle).mem_of_overrides sound (noCircle.of_asks asks) overrides
    cases found with
    | nil => cases member
    | cons _ _ => rfl

/-- Working out a method with a memo of what was worked out gives no more than it overrides,
and it is worked out itself unless it was active already. The active methods have asked for it,
one through the other, and the depth suffices for all that are not active. -/
theorem keeps_overriddenBy (sound : catalogue.graph.Sound) {depth : Nat} {active : List Nat}
    (there : catalogue.HasNode method) (nodup : active.Nodup)
    (behind : ∀ asking ∈ active,
      catalogue.HasNode asking ∧ Relation.TransGen catalogue.Asks asking method)
    (enough : catalogue.graph.nodeCount < depth + active.length) :
    Keeps catalogue.AllWorkedOut (catalogue.overriddenBy depth active method) fun found =>
      (∀ id ∈ found, catalogue.Overrides method id) ∧
        (method ∉ active → catalogue.WorkedOut method found) := by
  induction depth generalizing active method with
  | zero =>
    have few := Graph.length_le_nodeCount nodup fun asking member => (behind asking member).1
    omega
  | succ depth deeper =>
    unfold overriddenBy
    refine keeps_get_bind fun memo kept => ?_
    cases known : memo[method]? with
    | some old =>
      have settled := kept known
      exact keeps_pure ⟨fun id => settled.overrides sound there, fun _ => settled⟩
    | none =>
      by_cases again : method ∈ active
      · rw [if_pos (List.contains_iff_mem.mpr again)]
        exact keeps_pure ⟨by simp, fun new => absurd again new⟩
      · obtain ⟨node, held⟩ := Graph.isSome_key?_iff.mp there
        obtain rfl := sound.node_id held
        rw [if_neg (fun listed => again (List.contains_iff_mem.mp listed)), held]
        dsimp only
        rw [searchOverridden_eq sound]
        refine keeps_bind (keeps_selected (catalogue.Judges node) fun base among =>
          keeps_isOverridden ?_ ?_ ?_) fun found selects => ?_
        · exact fun unfit => ⟨nofun, fun isOverridden => absurd isOverridden.1 unfit⟩
        · exact fun ofObjects marks => ⟨fun _ => ⟨ofObjects, .inl marks⟩, fun _ _ => rfl⟩
        · intro ofObjects unmarked
          have asks : catalogue.Asks node.id base.id := .unmarked held among ofObjects unmarked
          have behindToo : ∀ asking ∈ node.id :: active, catalogue.HasNode asking ∧
              Relation.TransGen catalogue.Asks asking base.id := by
            intro asking member
            rcases List.mem_cons.mp member with rfl | former
            · exact ⟨there, .single asks⟩
            · exact ⟨(behind asking former).1, (behind asking former).2.tail asks⟩
          refine keeps_bind (deeper (hasNode_of_mem_candidates sound among)
            (List.nodup_cons.mpr ⟨again, nodup⟩) behindToo (by rw [List.length_cons]; omega)) ?_
          rintro found ⟨justified, settled⟩
          refine keeps_pure (judges_of_asked sound held among ofObjects unmarked justified
            fun noCircle => settled fun member => ?_)
          -- Were the candidate active, it would have asked for itself.
          exact noCircle (.single asks) (behindToo base.id member).2
        · have settled : catalogue.WorkedOut node.id found := by
            intro same heldToo
            rw [held] at heldToo
            cases heldToo
            exact selects
          exact keeps_bind (keeps_modify fun _ kept => kept.insert settled) fun _ _ =>
            keeps_pure ⟨fun id => settled.overrides sound there, fun _ => settled⟩

/-- Methods with what they override, worked out in some order with one memo for all. -/
def overridesInOrder (catalogue : Catalogue) (methods : List Nat) : List (Nat × List Nat) :=
  let table : StateM OverrideMemo (List (Nat × List Nat)) := methods.mapM fun method => do
    return (method, ← catalogue.overriddenMethods method)
  (Id.run (table.run ∅)).1

/-- What a method overrides, worked out with a memo of its own. -/
def overriddenAlone (catalogue : Catalogue) (method : Nat) : List Nat :=
  (Id.run ((catalogue.overriddenMethods method).run ∅)).1

/-- Computing for one method keeps the memo right and works the method out. -/
theorem keeps_overriddenMethods (sound : catalogue.graph.Sound)
    (there : catalogue.HasNode method) :
    Keeps catalogue.AllWorkedOut (catalogue.overriddenMethods method)
      (catalogue.WorkedOut method) := by
  intro memo kept
  obtain ⟨⟨_, settled⟩, keptToo⟩ := keeps_overriddenBy sound there List.nodup_nil (by simp)
    (show catalogue.graph.nodeCount < catalogue.graph.nodeCount + 1 + [].length by simp) memo kept
  exact ⟨settled List.not_mem_nil, keptToo⟩

/-- Computing for a method with an empty memo works it out. -/
theorem workedOut_overriddenAlone (sound : catalogue.graph.Sound)
    (there : catalogue.HasNode method) :
    catalogue.WorkedOut method (catalogue.overriddenAlone method) :=
  (keeps_overriddenMethods sound there ∅ (allWorkedOut_empty catalogue)).1

/-- In whatever order methods are worked out, each of them is. -/
theorem workedOut_inOrder (sound : catalogue.graph.Sound) {methods : List Nat}
    (there : ∀ method ∈ methods, catalogue.HasNode method) :
    List.Forall₂ (fun method entry => entry.1 = method ∧ catalogue.WorkedOut method entry.2)
      methods (catalogue.overridesInOrder methods) := by
  refine (keeps_mapM (fun method member => ?_) ∅ (allWorkedOut_empty catalogue)).1
  refine keeps_bind (keeps_overriddenMethods sound (there method member)) fun found settled => ?_
  exact keeps_pure ⟨rfl, settled⟩

end Catalogue

end DeclGraph
