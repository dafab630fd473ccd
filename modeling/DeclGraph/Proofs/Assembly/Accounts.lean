import DeclGraph.Proofs.Assembly.Owners
import DeclGraph.Proofs.Linking.Accounts
import DeclGraph.Proofs.Linking.Stages

/-!
# What finishing reports as unresolved

Finishing gives a list of what is unresolved beside the graph. When no unit declares a stand-in
itself, there is none before the linking, so the list and the stand-ins of the finished graph
account for each other.
-/

namespace DeclGraph

namespace Catalogue

variable {before after : Catalogue}

/-- No node carries the key of a stand-in. -/
def WithoutStandIns (catalogue : Catalogue) : Prop :=
  ∀ ⦃id : Nat⦄ ⦃key : EntityKey⦄, catalogue.graph.key? id = some key → key.family ≠ .placeholder

/-- A move leads nothing to the key of a stand-in. -/
theorem Moved.profile?_of_placeholder {source target : ScopedName}
    (moved : before.Moved after source target) {key : EntityKey}
    (standIn : key.family = .placeholder) :
    after.graph.profile? key = before.graph.profile? key := by
  have notBelow : ∀ scope, key.isBelow scope = false := by
    intro scope
    rw [Bool.eq_false_iff]
    intro below
    rcases EntityKey.isBelow_iff.mp below with rfl | ⟨other, _⟩
    · cases standIn
    · exact other standIn
  have notAround : key.isScopeAround target.segments.dropLast = false := by
    simp [EntityKey.isScopeAround, standIn]
  rw [moved.profile, profileMoved?]
  simp [notBelow, notAround]

/-- A move makes no stand-in. -/
theorem MovedTo.withoutStandIns {source : ScopedName} {place : Option ScopedName}
    (moved : before.MovedTo after source place) (housed : before.Housed [])
    (without : before.WithoutStandIns) : after.WithoutStandIns := by
  have housedAfter := moved.housed housed
  cases place with
  | none => exact (show after = before from moved) ▸ without
  | some target =>
    by_cases fits : MoveFits before.graph.profile? source target
    · intro id key carried standIn
      have known := housedAfter.sound.profile?_isSome.mpr ⟨id, carried⟩
      rw [(moved.1 fits).profile?_of_placeholder standIn] at known
      obtain ⟨former, carriedBefore⟩ := housed.sound.profile?_isSome.mp known
      exact without carriedBefore standIn
    · exact moved.2 fits ▸ without

/-- Settling kinds makes no stand-in. -/
theorem Rekinded.withoutStandIns {kindOf : Node → EntityKind}
    (rekinded : before.Rekinded after kindOf) (without : before.WithoutStandIns) :
    after.WithoutStandIns := by
  intro id key carried
  rw [rekinded.key?] at carried
  exact without carried

/-- Before the linking there is nothing to account for. -/
theorem WithoutStandIns.accounted {catalogue : Catalogue} (without : catalogue.WithoutStandIns)
    (sound : catalogue.graph.Sound) (references : List SeenReference) :
    Linking.Accounted references ⟨catalogue, []⟩ where
  entries := by simp
  standIns := by
    intro id standIn
    obtain ⟨node, found, kind⟩ := Option.map_eq_some_iff.mp standIn
    have family := sound.kind_family found
    rw [kind] at family
    exact absurd family.symm (without (Graph.key?_of_node found))

end Catalogue

/-- Once everything is linked, the list and the stand-ins account for each other. -/
theorem Linking.Stages.accounted {references : List SeenReference} {start last : Linking}
    (stages : Stages references start last) (housed : start.catalogue.Housed [])
    (keeps : start.catalogue.MovesWithinFamilies) (owned : AllOwned references)
    (accounted : Accounted references start) : Accounted references last := by
  have aliased := ((succeeds_linkAliases_accounted housed accounted keeps owned).of_run
    stages.aliases).2
  have toAliased := stages.toAliased housed
  have based := ((succeeds_linkBases_accounted (toAliased.housed housed) aliased
    (toAliased.movesWithinFamilies keeps) owned).of_run stages.bases).2
  have fielded := ((succeeds_linkFields_accounted (stages.housed_based housed) based).of_run
    stages.fields).2
  have signed := ((succeeds_linkSignatures_accounted (stages.housed_fielded housed)
    fielded).of_run stages.signatures).2
  obtain ⟨toOverloaded, overloaded⟩ := (succeeds_linkOverloads_accounted
    (stages.housed_signed housed) signed).of_run stages.overloads
  have overridden := ((succeeds_linkOverrides_accounted
    (toOverloaded.housed (stages.housed_signed housed)) overloaded).of_run stages.overrides).2
  have called := ((succeeds_linkCalls_accounted (stages.housed_overridden housed)
    overridden).of_run stages.calls).2
  exact ((succeeds_linkLocals_accounted (stages.housed_called housed) called).of_run
    stages.locals).2

namespace Assembly

variable {settings : Settings} {units : List SourceUnit} {assembly : Assembly}

/-- When no unit declares a stand-in, what is taken up has none. -/
theorem TakenUp.withoutStandIns (taken : TakenUp settings units assembly)
    (declared : ∀ unit ∈ units, ∀ declaration ∈ unit.declarations,
      declaration.kind ≠ .placeholder) : assembly.catalogue.WithoutStandIns := by
  intro id key carried
  have holds := taken.history.holds
  have known := holds.housed.sound.profile?_isSome.mpr ⟨id, carried⟩
  rw [holds.profile, knownAfter_isSome_iff (regular_allMentions units)] at known
  rcases known with rfl | ⟨mention, member, rfl⟩
  · exact nofun
  · obtain ⟨unit, isUnit, inUnit⟩ := List.mem_flatMap.mp member
    rcases SourceUnit.mem_mentions_cases inUnit with
      ⟨declaration, among, rfl⟩ | ⟨name, kind, _, rfl⟩
    · intro standIn
      exact declared unit isUnit declaration among
        (EntityKind.eq_placeholder (declaration.key_family.symm.trans standIn))
    · rw [SourceUnit.ofScope_key]
      exact nofun

/-- Whatever units were offered, if those that are taken up declare no stand-ins, what
finishing reports as unresolved and the stand-ins of the finished graph account for each
other. -/
theorem offered_accounted (settings : Settings) (units : List SourceUnit)
    (declared : ∀ unit ∈ (empty settings).accepted units, ∀ declaration ∈ unit.declarations,
      declaration.kind ≠ .placeholder) :
    let assembly := (empty settings).offered units
    ∃ prepared linking, assembly.Finishes prepared linking ∧
      Linking.Accounted (seenReferences assembly.units.values) linking := by
  intro assembly
  have taken := takenUp_accepted settings units
  have holds := taken.history.holds
  obtain ⟨prepared, linking, finishes, housed, _, _⟩ := finish_links holds.housed holds.unlinked
  obtain ⟨stages⟩ := Linking.exists_stages finishes.links
  have without := taken.prepared_keeps finishes Catalogue.WithoutStandIns
    (fun housed moved => moved.withoutStandIns housed)
    (fun _ rekinded => rekinded.withoutStandIns) (taken.withoutStandIns declared)
  exact ⟨prepared, linking, finishes, stages.accounted housed (taken.movesWithinFamilies finishes)
    taken.allOwned (without.accounted housed.sound _)⟩

/-- A record with a base that no unit declares. -/
def orphanUnit : SourceUnit where
  path := .ofText "orphan.h"
  declarations :=
    [{ kind := .structRecord, name := "Orphan", line := 1, isDefinition := true
       bases := [⟨"Stranger", .everyone, false⟩] }]
  directives := []
  parseTime := .zero
  lineCount := 1
  byteCount := 27

/-- The reference that means nothing in the orphaned unit is accounted for. -/
theorem offered_accounted_orphan :
    (∀ unit ∈ (empty {}).accepted [orphanUnit], ∀ declaration ∈ unit.declarations,
      declaration.kind ≠ .placeholder) ∧
    ∃ prepared linking, ((empty {}).offered [orphanUnit]).Finishes prepared linking ∧
      Linking.Accounted (seenReferences ((empty {}).offered [orphanUnit]).units.values)
        linking := by
  have declared : ∀ unit ∈ (empty {}).accepted [orphanUnit],
      ∀ declaration ∈ unit.declarations, declaration.kind ≠ .placeholder := by
    intro unit member
    obtain rfl := List.mem_singleton.mp ((accepted_sublist _ _).subset member)
    decide
  exact ⟨declared, offered_accounted {} [orphanUnit] declared⟩

end Assembly

end DeclGraph
