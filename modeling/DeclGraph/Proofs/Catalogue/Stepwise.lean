import DeclGraph.Catalogue.Relocation
import DeclGraph.Proofs.Catalogue.Action
import DeclGraph.Proofs.Graph.Changes

/-!
# What single steps keep

Registering a mention is a sequence of requests to the graph, between which members are listed.
So it keeps every condition that each of these steps keeps. One such condition is that the
numbers of some earlier graph still mean what they meant there, as far as they mean anything:
a number that is free is never given again.
-/

namespace DeclGraph

namespace Catalogue

/-- A condition that survives every request to the graph and every change of the listed
members. -/
structure KeptBySteps (invariant : Catalogue → Prop) : Prop where
  graph : ∀ {before : Catalogue} {graph : Graph} (request : Graph.Change), invariant before →
    request.perform before.graph = .ok graph → invariant { before with graph }
  members : ∀ {before : Catalogue} (memberIndex : Std.ExtTreeMap MemberKey (List Nat)),
    invariant before → invariant { before with memberIndex }

namespace KeptBySteps

variable {invariant : Catalogue → Prop} (kept : KeptBySteps invariant)

include kept

/-- A change that stands for a request to the graph keeps what steps keep. -/
theorem changing {α : Type} {change : Graph → Except GraphError (Graph × α)}
    (request : Graph.Change) (asked : ∀ graph, request.perform graph = (·.1) <$> change graph) :
    Action.Keeps invariant (Action.changing change) := by
  intro before held
  cases done : change before.graph with
  | error error => exact Action.ensures_changing_of_error done held
  | ok outcome =>
    refine Action.ensures_changing done (kept.graph request held ?_)
    rw [asked, done]
    rfl

/-- An edit that stands for a request to the graph keeps what steps keep. -/
theorem editing {change : Graph → Except GraphError Graph} (request : Graph.Change)
    (asked : ∀ graph, request.perform graph = change graph) :
    Action.Keeps invariant (Action.editing change) :=
  Action.keeps_editing fun _ _ held done => kept.graph request held ((asked _).trans done)

/-- Inserting a node is a step. -/
theorem insert (key : EntityKey) (kind : EntityKind) (attributes : Attributes) :
    Action.Keeps invariant (Action.changing fun graph => graph.insert key kind attributes) :=
  kept.changing (.insert key kind attributes) fun _ => rfl

/-- Attaching a child is a step in the graph and one in the index. -/
theorem attach (scope child : Nat) : Action.Keeps invariant (attach scope child) :=
  Action.keeps_bind (kept.changing (.connect scope child .contains ∅) fun _ => rfl) fun _ =>
    Action.keeps_bind (Action.keeps_reading _) fun _ =>
      Action.keeps_modify fun _ held => kept.members _ held

/-- Making sure of the scopes around a name takes a step for each that is missing. -/
theorem ensureScope (inner : List String) : Action.Keeps invariant (ensureScope inner) := by
  induction inner with
  | nil => exact Action.keeps_pure _
  | cons last outer further =>
    refine Action.keeps_bind Action.keeps_get fun catalogue => ?_
    cases catalogue.graph.nodeByKey? (.scope ⟨(last :: outer).reverse⟩) with
    | some id => exact Action.keeps_pure _
    | none =>
      exact Action.keeps_bind further fun scope => Action.keeps_bind (kept.insert _ _ _) fun id =>
        Action.keeps_bind (kept.attach scope id) fun _ => Action.keeps_pure _

/-- Registering keeps what its steps keep, whether it succeeds or fails. -/
theorem register (mention : Mention) : Action.Keeps invariant (register mention) := by
  refine Action.keeps_bind Action.keeps_get fun catalogue => ?_
  cases catalogue.graph.nodeByKey? mention.key with
  | some id =>
    refine Action.keeps_bind (Action.keeps_reading _) fun existing =>
      Action.keeps_bind (kept.editing (.setAttributes id _) fun _ => rfl) fun _ => ?_
    dsimp only
    split
    · exact Action.keeps_bind (kept.editing (.setKind id _) fun _ => rfl) fun _ =>
        Action.keeps_pure _
    · exact Action.keeps_pure _
  | none =>
    refine Action.keeps_bind (kept.insert _ _ _) fun id => ?_
    dsimp only
    split
    · exact Action.keeps_bind (kept.ensureScope _) fun scope =>
        Action.keeps_bind (kept.attach scope id) fun _ => Action.keeps_pure _
    · exact Action.keeps_pure _

/-- Detaching keeps what its steps keep. -/
theorem detach (id : Nat) : Action.Keeps invariant (detach id) := by
  have rest := Action.keeps_bind
    (Action.keeps_modify fun before (held : invariant before) =>
      kept.members (before.memberIndex.filter fun key _ => key.scope ≠ id) held)
    fun _ => kept.editing (.removeNode id) fun _ => rfl
  refine Action.keeps_bind Action.keeps_get fun catalogue => ?_
  cases catalogue.graph.parent? id with
  | none => exact rest
  | some scope =>
    exact Action.keeps_bind (Action.keeps_reading _) fun _ =>
      Action.keeps_bind (Action.keeps_modify fun _ held => kept.members _ held) fun _ => rest

end KeptBySteps

/-- The graph is sound, and in it the numbers of an earlier graph mean what they meant. -/
structure NumbersSince (earlier : Graph) (catalogue : Catalogue) : Prop where
  sound : catalogue.graph.Sound
  numbers : earlier.KeepsNumbers catalogue.graph

/-- The steps leave the meaning of numbers, since none is given twice. -/
theorem keptBySteps_numbersSince (earlier : Graph) : KeptBySteps (NumbersSince earlier) where
  graph := by
    intro before graph request since done
    have changed := since.sound.changed_of_perform done
    exact ⟨changed.sound since.sound, since.numbers.trans (changed.keepsNumbers since.sound)⟩
  members := fun _ since => ⟨since.sound, since.numbers⟩

/-- Registering a moved node again leaves the meaning of numbers. -/
theorem keeps_resettle_numbersSince (earlier : Graph) (former : EntityKey) (mention : Mention) :
    Action.Keeps (NumbersSince earlier) (resettle former mention) :=
  Action.keeps_bind ((keptBySteps_numbersSince earlier).register mention) fun _ =>
    Action.keeps_modify fun _ since => ⟨since.sound, since.numbers⟩

end Catalogue

end DeclGraph
