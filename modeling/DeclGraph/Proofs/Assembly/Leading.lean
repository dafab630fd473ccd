import DeclGraph.Proofs.Assembly.Owners
import DeclGraph.Proofs.Linking.Leading

/-!
# What is unresolved of aliases and bases

Names in aliases and bases are looked up while aliases and bases are still being linked. What
finishing reports as unresolved of them therefore means nothing at its turn, which is not to say
that it means nothing in the finished graph.
-/

namespace DeclGraph

namespace Linking.Stages

variable {references others : List SeenReference} {start last otherLast : Linking}

/-- The first two passes are one pass over the references of both. -/
theorem leading (stages : Stages references start last) :
    (leadingReferences references).forM linkLeading start = .ok ((), stages.based) := by
  rw [forM_linkLeading]
  simp only [bind, StateT.bind, Except.bind, stages.aliases]
  exact stages.bases

/-- What the first two passes leave depends on the references to bases and to what aliases stand
for only. -/
theorem based_eq (stages : Stages references start last)
    (stagesToo : Stages others start otherLast)
    (same : leadingReferences references = leadingReferences others) :
    stages.based = stagesToo.based := by
  have ran := stages.leading
  rw [same, stagesToo.leading] at ran
  exact (congrArg Prod.snd (Except.ok.inj ran)).symm

end Linking.Stages

/-- The first two passes leave what the references of both leave, each in its turn. -/
theorem Linking.Stages.linksInTurn {prepared : Catalogue} {references : List SeenReference}
    {last : Linking} (stages : Stages references ⟨prepared, []⟩ last)
    (housed : prepared.Housed []) (keeps : prepared.MovesWithinFamilies)
    (owned : AllOwned references) :
    LinksInTurn prepared (leadingReferences references) ⟨prepared, []⟩ stages.based := by
  refine (succeeds_forM_inTurn (fun item member linking sofar => ?_) .refl).of_run
    stages.leading
  have waits : item ∈ references := by
    rcases List.mem_append.mp member with isAlias | isBase
    · exact List.mem_of_mem_filter isAlias
    · exact List.mem_of_mem_filter isBase
  exact succeeds_linkLeading housed keeps (owned item waits) sofar

/-- In the end, everything noted of aliases and bases was missed at its turn. -/
theorem Linking.Stages.missedSince {prepared : Catalogue} {references : List SeenReference}
    {last : Linking} (stages : Stages references ⟨prepared, []⟩ last)
    (housed : prepared.Housed []) (keeps : prepared.MovesWithinFamilies)
    (owned : AllOwned references) {entry : Unresolved} (listed : entry ∈ last.unresolved)
    (leading : entry.purpose = .aliasTarget ∨ entry.purpose = .base) :
    ∃ item later, item :: later <:+ leadingReferences references ∧
      MissedSince prepared item later entry last := by
  have quiet : Leads prepared [] stages.based last :=
    .of_quiet (stages.basedToLast housed) (by decide) quietBonds_quiet (stages.housed_based housed)
  rcases (stages.linksInTurn housed keeps owned).noted entry
    (stages.noted_of_leading listed leading) with known | ⟨item, later, isSuffix, missed⟩
  · cases known
  · exact ⟨item, later, isSuffix, missed.onward quiet (List.nil_subset _)⟩

namespace Assembly

/-- Whatever units were offered, a name that finishing reports as unresolved for an alias or for
a base means nothing in the finished graph either, unless its lookup there passes the owner of
the reference that asks for it, or of one that is linked later. -/
theorem offered_missed (settings : Settings) (units : List SourceUnit) :
    let assembly := (empty settings).offered units
    let references := seenReferences assembly.units.values
    ∃ prepared linking, assembly.Finishes prepared linking ∧
      ∀ entry ∈ linking.unresolved, entry.purpose = .aliasTarget ∨ entry.purpose = .base →
        ∃ viewpoint reference later,
          (viewpoint, reference) :: later <:+ leadingReferences references ∧
          viewpoint.unit = entry.unit ∧ reference.Asks entry.purpose entry.spelling ∧
          prepared.nodeByKey? reference.owner = some entry.referrer.id ∧
          let scope := linking.catalogue.scopeOf entry.referrer.id
          linking.catalogue.resolveFrom viewpoint (Linking.isOtherType entry.referrer.id)
              entry.spelling scope = [] ∨
            ∃ id, prepared.IsOwner ((viewpoint, reference) :: later) id ∧
              linking.catalogue.Passes viewpoint entry.spelling scope id := by
  intro assembly references
  have taken := takenUp_accepted settings units
  have holds := taken.history.holds
  obtain ⟨prepared, linking, finishes, housed, _, _⟩ := finish_links holds.housed holds.unlinked
  obtain ⟨stages⟩ := Linking.exists_stages finishes.links
  refine ⟨prepared, linking, finishes, fun entry listed leading => ?_⟩
  obtain ⟨⟨viewpoint, reference⟩, later, isSuffix, missed⟩ :=
    stages.missedSince housed (taken.movesWithinFamilies finishes) taken.allOwned listed leading
  have ⟨_, atTurn, _⟩ := missed
  exact ⟨viewpoint, reference, later, isSuffix, atTurn.unit, atTurn.asks, atTurn.referrer,
    missed.nothing_unless⟩

/-- A unit with a record that has a base out of another record. -/
def memberBaseUnit (path : String) : SourceUnit where
  path := .ofText path
  declarations :=
    [{ kind := .structRecord, name := "E", line := 1, isDefinition := true
       bases := [⟨"D::T", .everyone, false⟩] }]
  directives := []
  parseTime := .zero
  lineCount := 1
  byteCount := 20

/-- A unit in which the other record inherits that base as a member. -/
def inheritedMemberUnit : SourceUnit where
  path := .ofText "b.h"
  declarations :=
    [{ kind := .structRecord, name := "B", line := 1, isDefinition := true },
     { kind := .structRecord, name := "T", scope := [⟨"B", .structRecord⟩], line := 1
       isDefinition := true, access := some .everyone },
     { kind := .structRecord, name := "D", line := 2, isDefinition := true
       bases := [⟨"B", .everyone, false⟩] }]
  directives := []
  parseTime := .zero
  lineCount := 2
  byteCount := 45

/-- What finishing units in their order reports as unresolved, each name with the purpose and
with what it means in the finished graph to the same unit and the same node. -/
def meaningsOfUnresolved? (units : List SourceUnit) :
    Option (List (LookupPurpose × String × List ScopedName)) := do
  let pending := ((empty {}).offered units).units.values
  let prepared := ((prepare pending).run.run ((empty {}).offered units).catalogue).2
  let linking ← (Linking.run prepared pending).toOption
  let catalogue := linking.catalogue
  return linking.unresolved.map fun entry =>
    let directives := (pending.filter (·.path = entry.unit)).flatMap (·.directives)
    let found := catalogue.resolveFrom ⟨entry.unit, directives⟩
      (Linking.isOtherType entry.referrer.id) entry.spelling
      (catalogue.scopeOf entry.referrer.id)
    (entry.purpose, entry.spelling,
      (found.filterMap (catalogue.graph.nodeTable[·]?)).map (·.key.name))

/-- A base out of a record that inherits it is unresolved when it is linked before the base of
that record, though it means something in the finished graph. It depends on the order of the
paths alone. -/
theorem meaningsOfUnresolved?_inherited :
    (empty {}).accepted [memberBaseUnit "a.cpp", inheritedMemberUnit] =
        [memberBaseUnit "a.cpp", inheritedMemberUnit] ∧
      meaningsOfUnresolved? [memberBaseUnit "a.cpp", inheritedMemberUnit] =
        some [(.base, "D::T", [⟨["B", "T"]⟩])] ∧
      meaningsOfUnresolved? [memberBaseUnit "z.cpp", inheritedMemberUnit] = some [] := by
  refine ⟨?_, ?_, ?_⟩ <;> decide +kernel

end Assembly

end DeclGraph
