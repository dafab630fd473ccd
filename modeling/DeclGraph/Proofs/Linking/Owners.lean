import DeclGraph.Contribution.OfUnit
import DeclGraph.Proofs.Catalogue.Relocating
import DeclGraph.Proofs.Catalogue.Settling
import DeclGraph.Proofs.Linking.Types

/-!
# Who refers

Bases are those of scopes, an alias stands for something, a data member has a type, and
callables have signatures and bodies. The key under which a reference waits has the family of
such an entity. A move keeps the family of a key, so the referring node is of this family too,
and no stand-in ever refers to anything.
-/

namespace DeclGraph

namespace Reference

/-- The key of the entity that refers. -/
def owner : Reference → EntityKey
  | .base derived _ => derived
  | .aliasTarget owner _ | .fieldType owner _ | .parameterType owner _ | .returnType owner _
  | .localType owner _ => owner
  | .body caller _ _ => caller

/-- The family of the entities that refer in this way. -/
def ownerFamily : Reference → Family
  | .base _ _ => .scope
  | .aliasTarget _ _ => .typeAlias
  | .fieldType _ _ => .field
  | .parameterType _ _ | .returnType _ _ | .localType _ _ | .body _ _ _ => .callable

/-- No reference belongs to a placeholder. -/
theorem ownerFamily_ne_placeholder (reference : Reference) :
    reference.ownerFamily ≠ .placeholder := by
  cases reference <;> exact nofun

/-- What a reference belongs to is declared. -/
theorem owner_declared {reference : Reference}
    (owned : reference.owner.family = reference.ownerFamily) :
    reference.owner.family ≠ .placeholder :=
  owned ▸ reference.ownerFamily_ne_placeholder

end Reference

/-- A declaration refers as its own entity, and in the ways of its family only. -/
theorem Declaration.owner_of_mem_references {settings : Settings} {declaration : Declaration}
    {reference : Reference} (refers : reference ∈ declaration.references settings) :
    reference.owner = declaration.key ∧ declaration.kind.family = reference.ownerFamily := by
  unfold references at refers
  cases kind : declaration.kind <;> simp only [kind] at refers
  case classRecord | structRecord =>
    obtain ⟨base, _, rfl⟩ := List.mem_map.mp refers
    exact ⟨rfl, rfl⟩
  case freeFunction | method | constructor | destructor =>
    rcases List.mem_append.mp refers with inSignature | inBody
    · split at inSignature
      · obtain ⟨signature, _, listed⟩ := List.mem_flatMap.mp inSignature
        rcases List.mem_append.mp listed with parameter | result
        · obtain ⟨_, _, rfl⟩ := List.mem_map.mp parameter
          exact ⟨rfl, rfl⟩
        · obtain ⟨_, _, rfl⟩ := List.mem_map.mp result
          exact ⟨rfl, rfl⟩
      · cases inSignature
    · obtain ⟨body, _, listed⟩ := List.mem_flatMap.mp inBody
      rcases List.mem_append.mp listed with held | calls
      · split at held
        · obtain ⟨_, _, rfl⟩ := List.mem_map.mp held
          exact ⟨rfl, rfl⟩
        · cases held
      · split at calls
        · obtain rfl := List.mem_singleton.mp calls
          exact ⟨rfl, rfl⟩
        · cases calls
  case typeAlias =>
    obtain ⟨_, _, rfl⟩ := List.mem_map.mp refers
    exact ⟨rfl, rfl⟩
  case field =>
    split at refers
    · obtain ⟨_, _, rfl⟩ := List.mem_map.mp refers
      exact ⟨rfl, rfl⟩
    · cases refers
  case namespaceScope | placeholder => cases refers

/-- The references seen are those of the units, each with the viewpoint of its unit. -/
theorem mem_seenReferences_iff {units : List Pending} {item : SeenReference} :
    item ∈ seenReferences units ↔ ∃ unit ∈ units, item.1 = ⟨unit.path, unit.directives⟩ ∧
      item.2 ∈ unit.references := by
  simp only [seenReferences, List.mem_flatMap, List.mem_map]
  constructor
  · rintro ⟨unit, member, reference, refers, rfl⟩
    exact ⟨unit, member, rfl, refers⟩
  · rintro ⟨unit, member, seen, refers⟩
    exact ⟨unit, member, item.2, refers, by rw [← seen]⟩

/-- Every reference has an owner of the family that refers in this way. -/
def AllOwned (references : List SeenReference) : Prop :=
  ∀ item ∈ references, item.2.owner.family = item.2.ownerFamily

namespace Catalogue

variable {catalogue before after : Catalogue} {key last : EntityKey}

/-- Every move keeps the family of the key. -/
def MovesWithinFamilies (catalogue : Catalogue) : Prop :=
  ∀ ⦃key next : EntityKey⦄, catalogue.moved[key]? = some next → next.family = key.family

/-- A key settles at one of its own family. -/
theorem SettlesAt.family (keeps : catalogue.MovesWithinFamilies)
    (settles : catalogue.SettlesAt key last) : last.family = key.family := by
  induction settles with
  | stays => rfl
  | leads moved _ further => exact further.trans (keeps moved)

/-- Relocating a scope leaves every entry of the moves within one family. -/
theorem MovedTo.movesWithinFamilies {source : ScopedName} {place : Option ScopedName}
    (moved : before.MovedTo after source place) (keeps : before.MovesWithinFamilies) :
    after.MovesWithinFamilies := by
  cases place with
  | none => exact (show after = before from moved) ▸ keeps
  | some target =>
    by_cases fits : MoveFits before.graph.profile? source target
    · intro key next leads
      rw [(moved.1 fits).moved] at leads
      split at leads
      · cases leads
        rfl
      · exact keeps leads
    · exact moved.2 fits ▸ keeps

/-- Giving nodes other kinds leaves every entry of the moves within one family. -/
theorem Rekinded.movesWithinFamilies {kindOf : Node → EntityKind}
    (rekinded : before.Rekinded after kindOf) (keeps : before.MovesWithinFamilies) :
    after.MovesWithinFamilies := by
  intro key next leads
  rw [rekinded.moved] at leads
  exact keeps leads

/-- The node that is known under a key is of a kind of the family of the key. -/
theorem kind?_of_nodeByKey? (sound : catalogue.graph.Sound)
    (keeps : catalogue.MovesWithinFamilies) {id : Nat}
    (known : catalogue.nodeByKey? key = some id) :
    ∃ kind, catalogue.kind? id = some kind ∧ kind.family = key.family := by
  obtain ⟨last, settles, carried⟩ := (nodeByKey?_eq_some sound).mp known
  obtain ⟨node, found, rfl⟩ := Graph.key?_eq_some.mp carried
  refine ⟨node.kind, by rw [kind?, found]; rfl, ?_⟩
  rw [sound.kind_family found, settles.family keeps]

end Catalogue

/-- Growth leaves every entry of the moves within one family. -/
theorem Linking.Grows.movesWithinFamilies {bonds : List Bond} {before after : Linking}
    (grows : before.Grows bonds after) (keeps : before.catalogue.MovesWithinFamilies) :
    after.catalogue.MovesWithinFamilies := by
  intro key next leads
  rw [grows.moved] at leads
  exact keeps leads

/-- As only stand-ins are added, keys of other families lead where they led. -/
theorem Linking.Grows.nodeByKey?_iff {bonds : List Bond} {before after : Linking}
    (grows : before.Grows bonds after) (start : before.catalogue.Housed [])
    (keeps : before.catalogue.MovesWithinFamilies) {key : EntityKey}
    (declared : key.family ≠ .placeholder) {id : Nat} :
    after.catalogue.nodeByKey? key = some id ↔ before.catalogue.nodeByKey? key = some id := by
  refine ⟨fun known => ?_, grows.nodeByKey?_kept start⟩
  obtain ⟨last, settles, carried⟩ :=
    (Catalogue.nodeByKey?_eq_some (grows.housed start).sound).mp known
  replace settles := settles.of_moved grows.moved.symm
  refine (Catalogue.nodeByKey?_eq_some start.sound).mpr ⟨last, settles, ?_⟩
  refine (grows.keys_new carried).resolve_right ?_
  rwa [settles.family keeps]

end DeclGraph
