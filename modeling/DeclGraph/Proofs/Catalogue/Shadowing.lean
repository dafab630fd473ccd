import DeclGraph.Proofs.Catalogue.Following
import DeclGraph.Proofs.Catalogue.Requests

/-!
# Keys that come alive again

A key that was moved leads to where its node went. A later mention, or another
move, can put a new node under the key, and the move that is noted from it stays:
the node is there, and its key leads past it. This is the only way in which a
node is missed. A node is found under its key exactly where no move is noted
from the key, and moves are noted only from keys at or below scopes that were
asked to be moved.
-/

namespace DeclGraph

namespace Catalogue

variable {catalogue : Catalogue}

/-- A chain of moves ends at a key from which none is noted. -/
theorem SettlesAt.unmoved {key last : EntityKey} (settles : catalogue.SettlesAt key last) :
    catalogue.moved[last]? = none := by
  induction settles with
  | stays unmoved => exact unmoved
  | leads _ _ further => exact further

/-- A node is found under its key exactly where no move is noted from the key. -/
theorem nodeByKey?_eq_some_iff_unmoved (sound : catalogue.graph.Sound) {id : Nat}
    {key : EntityKey} (carried : catalogue.graph.key? id = some key) :
    catalogue.nodeByKey? key = some id ↔ catalogue.moved[key]? = none := by
  rw [nodeByKey?_eq_some sound]
  constructor
  · rintro ⟨last, settles, held⟩
    rw [carried] at held
    cases held
    exact settles.unmoved
  · exact fun unmoved => ⟨key, .stays unmoved, carried⟩

/-- No step of a registration notes a move. -/
theorem keptBySteps_moved (moved : Std.ExtTreeMap EntityKey EntityKey) :
    KeptBySteps (·.moved = moved) where
  graph := by
    intro before graph request same _
    exact same
  members := by
    intro before memberIndex same
    exact same

/-- A history that asks for a scope at or above the key to be moved. -/
def Relocates (requests : List Request) (key : EntityKey) : Prop :=
  ∃ viewpoint implied, Request.relocate viewpoint implied ∈ requests ∧
    ∃ name ∈ implied, key.isBelow name = true

/-- Moves are noted only from keys whose scopes a history asks to be moved. -/
structure MovesAsked (requests : List Request) (catalogue : Catalogue) : Prop where
  tidy : catalogue.Tidy
  asked : ∀ key, (catalogue.moved[key]?).isSome → Relocates requests key

/-- A move notes nothing but keys below the scope that is to be moved. -/
theorem MovedTo.asked {before after : Catalogue} {name : ScopedName} {place : Option ScopedName}
    (moved : before.MovedTo after name place) {key : EntityKey}
    (noted : (after.moved[key]?).isSome) :
    (before.moved[key]?).isSome ∨ key.isBelow name = true := by
  cases place with
  | none => exact .inl ((show after = before from moved) ▸ noted)
  | some target =>
    by_cases fits : MoveFits before.graph.profile? name target
    · rw [(moved.1 fits).moved] at noted
      split at noted
      · rename_i holds
        exact .inr holds.1
      · exact .inl noted
    · exact .inl (moved.2 fits ▸ noted)

/-- An action that notes no move. -/
theorem MovesAsked.kept {α : Type} {requests : List Request} {action : Action α}
    {before : Catalogue} (held : MovesAsked requests before) (tidy : Action.Keeps Tidy action)
    (quiet : Action.Keeps (·.moved = before.moved) action) :
    Action.Ensures action before (fun _ => MovesAsked requests) (MovesAsked requests) := by
  refine ((tidy held.tidy).and (quiet rfl)).mono (fun _ after both => ?_) fun after both => ?_
  all_goals exact ⟨both.1, fun key noted => held.asked key (both.2 ▸ noted)⟩

/-- A request of a history notes no moves but those that the history asks for. -/
theorem Request.keeps_movesAsked {requests : List Request} {request : Request}
    (member : request ∈ requests) : Action.Keeps (MovesAsked requests) request.perform := by
  intro before held
  cases request with
  | register mention =>
    exact held.kept (Request.keeps_tidy (.register mention))
      (Action.keeps_bind ((keptBySteps_moved _).register mention) fun _ => Action.keeps_pure ())
  | placeholder spelling =>
    refine held.kept (Request.keeps_tidy (.placeholder spelling))
      (Action.keeps_bind (Action.keeps_bind Action.keeps_get fun catalogue => ?_)
        fun _ => Action.keeps_pure ())
    cases catalogue.graph.nodeByKey? (.placeholder spelling) with
    | some id => exact Action.keeps_pure _
    | none => exact Action.keeps_changing fun _ _ same => same
  | settleKinds =>
    refine ((Request.keeps_tidy .settleKinds held.tidy).and
      (succeeds_settleKinds_sameKeys held.tidy.housed)).mono (fun _ after both => ?_)
        fun _ both => both.2.elim
    exact ⟨both.1, fun key noted => held.asked key (both.2.moved ▸ noted)⟩
  | relocate viewpoint implied =>
    refine Action.ensures_forM_invariant _ (fun name listed middle still => ?_) held
    refine (succeeds_relocateScope still.tidy.housed viewpoint name).mono (fun _ after moved => ?_)
      fun _ impossible => impossible.elim
    refine ⟨⟨moved.housed still.tidy.housed, moved.unlinked still.tidy.unlinked⟩, fun key noted => ?_⟩
    rcases moved.asked noted with before | below
    · exact still.asked key before
    · exact ⟨viewpoint, implied, member, name, List.mem_mergeSort.mp listed, below⟩

/-- Whatever has been asked for, the moves noted are among those asked for. -/
theorem movesAsked_afterRequests (requests : List Request) :
    MovesAsked requests (afterRequests requests) := by
  refine afterRequests_of_keeps ⟨tidy_empty, fun key noted => ?_⟩
    fun request member => Request.keeps_movesAsked member
  simp [empty] at noted

/-- What a history finds of the nodes that are there. -/
structure FindsUnmoved (requests : List Request) : Prop where
  /-- A node is found under its key exactly where no move is noted from the key. -/
  found_iff : ∀ id key, (afterRequests requests).graph.key? id = some key →
    ((afterRequests requests).nodeByKey? key = some id ↔
      (afterRequests requests).moved[key]? = none)
  /-- A move is noted only from a key at or below a scope that was asked to be moved. -/
  found_outside : ∀ id key, (afterRequests requests).graph.key? id = some key →
    ¬ Relocates requests key → (afterRequests requests).nodeByKey? key = some id
  /-- Right after a mention has been registered its node is there, and it is found unless a move
  was noted from its key before. -/
  registered_iff : ∀ mention id after,
    (register mention).run.run (afterRequests requests) = (.ok id, after) →
      after.graph.key? id = some mention.key ∧
        (after.nodeByKey? mention.key = some id ↔
          (afterRequests requests).moved[mention.key]? = none)

/-- After every history a node is found under its key unless the key was moved
earlier and has come alive again, which happens only at or below scopes that were
asked to be moved. -/
theorem findsUnmoved_afterRequests (requests : List Request) : FindsUnmoved requests where
  found_iff := fun id key carried =>
    nodeByKey?_eq_some_iff_unmoved (tidy_afterRequests requests).housed.sound carried
  found_outside := by
    intro id key carried outside
    refine (nodeByKey?_eq_some_iff_unmoved
      (tidy_afterRequests requests).housed.sound carried).mpr ?_
    refine Option.not_isSome_iff_eq_none.mp fun noted => outside ?_
    exact (movesAsked_afterRequests requests).asked key noted
  registered_iff := by
    intro mention id after ran
    obtain ⟨carried, housed, registered⟩ :=
      (ensures_register (tidy_afterRequests requests).housed mention).of_run ran
    refine ⟨carried, ?_⟩
    rw [nodeByKey?_eq_some_iff_unmoved housed.sound carried, registered.moved]

section Overtaken

/-- A mention of a scope, declared or known from qualifiers only. -/
def scopeMention (segments : List String) (kind : EntityKind) (implied : Bool) : Mention :=
  ⟨.scope ⟨segments⟩, kind, ∅, !implied, implied⟩

/-- First `E::P::In` is moved to `Z::In`. Then `P` is moved to `E::P`, and takes the implied
scope `P::In` along, which gets the key that was moved before. -/
def overtaking : List Request :=
  [.register (scopeMention ["Z"] .namespaceScope false),
    .register (scopeMention ["E"] .namespaceScope false),
    .register (scopeMention ["E", "P"] .classRecord false),
    .register (scopeMention ["Z", "In"] .classRecord false),
    .register (scopeMention ["E", "P", "In"] .namespaceScope true),
    .register (scopeMention ["P", "In"] .namespaceScope true),
    .relocate ⟨.ofText "a.cpp", [⟨⟨["E", "P"]⟩, "Z", 1⟩]⟩ [⟨["E", "P", "In"]⟩],
    .relocate ⟨.ofText "b.cpp", [⟨.global, "E", 1⟩]⟩ [⟨["P"]⟩]]

/-- A key that is moved and then carried by another node leads past that node, and so does a key
that is registered again after it was moved. -/
theorem nodeByKey?_misses_overtaken :
    (afterRequests overtaking).graph.nodeByKey? (.scope ⟨["E", "P", "In"]⟩) = some 8 ∧
      (afterRequests overtaking).nodeByKey? (.scope ⟨["E", "P", "In"]⟩) = some 4 ∧
      ((register (scopeMention ["P"] .namespaceScope true)).run.run
        (afterRequests overtaking)).1.toOption = some 9 ∧
      (afterRequests (overtaking ++ [.register (scopeMention ["P"] .namespaceScope true)])).nodeByKey?
        (.scope ⟨["P"]⟩) = some 3 := by
  refine ⟨?_, ?_, ?_, ?_⟩ <;> decide +kernel

end Overtaken

end Catalogue

end DeclGraph
