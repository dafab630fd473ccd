import DeclGraph.Proofs.Catalogue.Relocating
import DeclGraph.Proofs.Catalogue.Settling

/-!
# Histories of a catalogue

A catalogue begins with the global namespace alone and is asked for four things:
to register a mention, to give the stand-in for a spelling, to settle the kinds,
and to move the implied scopes of a unit. A request can fail halfway, and what
it did before stays. Along every history containment is as the keys say, and
nothing else relates the nodes.
-/

namespace DeclGraph

namespace Catalogue

/-- A request to a catalogue. -/
inductive Request where
  | register (mention : Mention)
  | placeholder (spelling : String)
  | settleKinds
  | relocate (viewpoint : Viewpoint) (implied : List ScopedName)

namespace Request

/-- The action that a request asks for, its result left out. -/
def perform : Request → Action Unit
  | register mention => Catalogue.register mention >>= fun _ => pure ()
  | placeholder spelling => Catalogue.placeholder spelling >>= fun _ => pure ()
  | settleKinds => Catalogue.settleKinds
  | relocate viewpoint implied => Catalogue.relocate viewpoint implied

/-- The catalogue after a request, be it that it fails. -/
def apply (catalogue : Catalogue) (request : Request) : Catalogue :=
  (request.perform.run.run catalogue).2

end Request

/-- The catalogue that a list of requests makes of the global namespace alone. -/
def afterRequests (requests : List Request) : Catalogue := requests.foldl Request.apply empty

/-- What every request of a history keeps holds after the history. -/
theorem afterRequests_of_keeps {invariant : Catalogue → Prop} {requests : List Request}
    (start : invariant empty)
    (keeps : ∀ request ∈ requests, Action.Keeps invariant request.perform) :
    invariant (afterRequests requests) := by
  have along : ∀ before, invariant before → invariant (requests.foldl Request.apply before) := by
    induction requests with
    | nil => exact fun _ held => held
    | cons request rest further =>
      intro before held
      refine further (fun other member => keeps other (List.mem_cons_of_mem _ member)) _ ?_
      exact (keeps request List.mem_cons_self).after held
  exact along empty start

/-- Containment is as the keys say, and nothing else relates the nodes. -/
structure Tidy (catalogue : Catalogue) : Prop where
  housed : catalogue.Housed []
  unlinked : catalogue.Unlinked

/-- The empty catalogue is tidy. -/
theorem tidy_empty : empty.Tidy := ⟨housed_empty, unlinked_empty⟩

/-- Settling kinds relates nothing. -/
theorem Rekinded.unlinked {before after : Catalogue} {kindOf : Node → EntityKind}
    (rekinded : before.Rekinded after kindOf) (unlinked : before.Unlinked) : after.Unlinked := by
  intro source target relation related
  rw [rekinded.others] at related
  exact unlinked source target relation related

/-- Every request leaves containment as the keys say, and relates nothing otherwise that was not
related, whether it succeeds or fails. -/
theorem Request.ensures_housed (request : Request) {before : Catalogue}
    (housed : before.Housed []) :
    Action.Ensures request.perform before
      (fun _ after => after.Housed [] ∧ (before.Unlinked → after.Unlinked))
      fun after => after.Housed [] ∧ (before.Unlinked → after.Unlinked) := by
  cases request with
  | register mention =>
    refine Action.ensures_bind ((ensures_register housed mention).mono ?_ ?_)
    · rintro id after ⟨_, still, registered⟩
      exact Action.ensures_pure ⟨still, registered.unlinked⟩
    · rintro after ⟨_, still, unlinked⟩
      exact ⟨still, unlinked⟩
  | placeholder spelling =>
    refine Action.ensures_bind (Action.ensures_bind (Action.ensures_get ?_))
    cases known : before.graph.nodeByKey? (.placeholder spelling) with
    | some id => exact Action.ensures_pure (Action.ensures_pure ⟨housed, fun unlinked => unlinked⟩)
    | none =>
      have family : EntityKind.placeholder.family = (EntityKey.placeholder spelling).family := rfl
      have newKey := (before.graph.key?_addNode (.placeholder spelling) .placeholder ∅
        before.graph.nextNode).trans (if_pos rfl)
      refine Action.ensures_changing (Graph.insert_of_fresh ∅ known family)
        (Action.ensures_pure ⟨?_, fun unlinked => unlinked⟩)
      exact (housed.addNode ∅ known family).settle rfl newKey fun lies => lies.2 rfl
  | settleKinds =>
    refine (succeeds_settleKinds housed).mono ?_ fun _ impossible => impossible.elim
    rintro _ after ⟨middle, scopes, callables⟩
    exact ⟨callables.housed, fun unlinked => callables.unlinked (scopes.unlinked unlinked)⟩
  | relocate viewpoint implied =>
    refine Action.ensures_forM_invariant
      (fun after : Catalogue => after.Housed [] ∧ (before.Unlinked → after.Unlinked))
      (fun name _ middle held => ?_) ⟨housed, fun unlinked => unlinked⟩
    refine (succeeds_relocateScope held.1 viewpoint name).mono ?_ fun _ impossible => impossible.elim
    exact fun _ after moved =>
      ⟨moved.housed held.1, fun unlinked => moved.unlinked (held.2 unlinked)⟩

/-- Every request keeps a housed catalogue housed. -/
theorem Request.keeps_housed (request : Request) : Action.Keeps (Housed · []) request.perform :=
  fun _ housed => (request.ensures_housed housed).mono (fun _ _ held => held.1) fun _ held => held.1

/-- Every request keeps a catalogue tidy. -/
theorem Request.keeps_tidy (request : Request) : Action.Keeps Tidy request.perform :=
  fun _ tidy => (request.ensures_housed tidy.housed).mono
    (fun _ _ held => ⟨held.1, held.2 tidy.unlinked⟩) fun _ held => ⟨held.1, held.2 tidy.unlinked⟩

/-- Whatever has been asked for, containment is as the keys say. -/
theorem tidy_afterRequests (requests : List Request) : (afterRequests requests).Tidy :=
  afterRequests_of_keeps tidy_empty fun request _ => request.keeps_tidy

end Catalogue

end DeclGraph
