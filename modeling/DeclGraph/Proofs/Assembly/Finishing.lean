import DeclGraph.Proofs.Assembly.Names
import DeclGraph.Proofs.Assembly.Owners
import DeclGraph.Proofs.Linking.Stages

/-!
# What finishing works on

What is known of the prepared catalogue and of the linking of an assembly that has been offered
units, in one place: the linking starts from a housed catalogue without links, in which names
are of one family and every callable has a signature, and it passes all its stages.
-/

namespace DeclGraph

namespace Catalogue

variable {before after : Catalogue}

/-- Every callable carries a signature in its key. -/
def CallablesSigned (catalogue : Catalogue) : Prop :=
  ∀ ⦃id : Nat⦄ ⦃key : EntityKey⦄, catalogue.graph.key? id = some key →
    key.family = .callable → key.signature.isSome

/-- A move keeps the signatures of callables. -/
theorem Moved.callablesSigned {source target : ScopedName} (moved : before.Moved after source target)
    (housed : before.Housed []) (signed : before.CallablesSigned) : after.CallablesSigned := by
  intro id key carried callable
  have known := moved.housed.sound.profile?_isSome.mpr ⟨id, carried⟩
  have notAround : key.isScopeAround target.segments.dropLast = false := by
    simp [EntityKey.isScopeAround, callable]
  -- What is known under the key came with the move or was there before.
  have origin : (before.graph.profile? (key.moved target source)).isSome ∨
      (before.graph.profile? key).isSome := by
    rw [moved.profile, profileMoved?] at known
    by_cases came : (before.graph.profile? (key.moved target source)).isSome
    · exact .inl came
    · rw [Option.not_isSome_iff_eq_none] at came
      by_cases below : key.isBelow source <;> simp_all
  rcases origin with came | stayed
  · obtain ⟨former, carriedBefore⟩ := housed.sound.profile?_isSome.mp came
    show (key.moved target source).signature.isSome
    exact signed carriedBefore callable
  · obtain ⟨former, carriedBefore⟩ := housed.sound.profile?_isSome.mp stayed
    exact signed carriedBefore callable

/-- A move leaves the signature in the key of every callable. -/
theorem MovedTo.callablesSigned {source : ScopedName} {place : Option ScopedName}
    (moved : before.MovedTo after source place) (housed : before.Housed [])
    (signed : before.CallablesSigned) : after.CallablesSigned := by
  cases place with
  | none => exact (show after = before from moved) ▸ signed
  | some target =>
    by_cases fits : MoveFits before.graph.profile? source target
    · exact (moved.1 fits).callablesSigned housed signed
    · exact moved.2 fits ▸ signed

/-- Settling kinds leaves the signature in the key of every callable. -/
theorem Rekinded.callablesSigned {kindOf : Node → EntityKind}
    (rekinded : before.Rekinded after kindOf) (signed : before.CallablesSigned) :
    after.CallablesSigned := by
  intro id key carried
  rw [rekinded.key?] at carried
  exact signed carried

end Catalogue

/-- The linking adds no callables. -/
theorem Linking.Grows.callablesSigned {bonds : List Bond} {before after : Linking}
    (grows : before.Grows bonds after) (signed : before.catalogue.CallablesSigned) :
    after.catalogue.CallablesSigned := by
  intro id key carried callable
  refine signed ((grows.keys_new carried).resolve_right ?_) callable
  rw [callable]
  exact nofun

namespace Assembly

variable {settings : Settings} {units : List SourceUnit} {assembly : Assembly}

/-- Callables that units declare have signatures. -/
theorem TakenUp.callablesSigned (taken : TakenUp settings units assembly) :
    assembly.catalogue.CallablesSigned := by
  intro id key carried callable
  have holds := taken.history.holds
  have known := holds.housed.sound.profile?_isSome.mpr ⟨id, carried⟩
  rw [holds.profile, knownAfter_isSome_iff (regular_allMentions units)] at known
  rcases known with rfl | ⟨mention, member, rfl⟩
  · cases callable
  · obtain ⟨unit, _, inUnit⟩ := List.mem_flatMap.mp member
    rcases SourceUnit.mem_mentions_cases inUnit with
      ⟨declaration, _, rfl⟩ | ⟨name, kind, _, rfl⟩
    · have family : declaration.kind.family = .callable := by
        rw [← declaration.key_family]
        exact callable
      show declaration.key.signature.isSome
      simp [Declaration.key, family, EntityKey.callable]
    · rw [SourceUnit.ofScope_key] at callable
      cases callable

/-- An assembly is finished by a linking that passes all its stages, from a catalogue that is as
preparing leaves it. -/
structure Finishing (assembly : Assembly) (prepared : Catalogue) (linking : Linking) : Prop where
  finishes : assembly.Finishes prepared linking
  housed : prepared.Housed []
  unlinked : prepared.Unlinked
  named : Catalogue.WellNamed prepared.graph.profile?
  signed : prepared.CallablesSigned
  keeps : prepared.MovesWithinFamilies
  owned : AllOwned (seenReferences assembly.units.values)
  stages : Nonempty
    (Linking.Stages (seenReferences assembly.units.values) ⟨prepared, []⟩ linking)

/-- Whatever units were offered, the assembly can be finished. -/
theorem exists_finishing (settings : Settings) (units : List SourceUnit) :
    ∃ prepared linking, ((empty settings).offered units).Finishing prepared linking := by
  have taken := takenUp_accepted settings units
  have holds := taken.history.holds
  obtain ⟨prepared, linking, finishes, housed, unlinked, _⟩ :=
    finish_links holds.housed holds.unlinked
  exact ⟨prepared, linking, {
    finishes
    housed
    unlinked
    named := wellNamed_of_prepare holds.housed holds.unlinked taken.history.wellNamed
      finishes.prepares
    signed := taken.prepared_keeps finishes Catalogue.CallablesSigned
      (fun housed moved => moved.callablesSigned housed)
      (fun _ rekinded => rekinded.callablesSigned) taken.callablesSigned
    keeps := taken.movesWithinFamilies finishes
    owned := taken.allOwned
    stages := Linking.exists_stages finishes.links }⟩

end Assembly

end DeclGraph
