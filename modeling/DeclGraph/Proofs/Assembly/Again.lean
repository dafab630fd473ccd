import DeclGraph.Proofs.Assembly.BestMention
import DeclGraph.Proofs.Merging.Again

/-!
# Taking up a unit again

A unit that was taken up before can be taken up again at any time. No node, no edge, no
index and nothing that waits under any path is added or removed. What a node says stays
as well, unless another unit that mentions its entity is shown like this one: then the
unit speaks last again.
-/

namespace DeclGraph

namespace Catalogue

/-- Whether catalogues differ in the profiles of their nodes only. -/
structure Reprofiled (before after : Catalogue) : Prop where
  rest : ∃ nodeTable, after = { before with graph := { before.graph with nodeTable } }
  nodes : ∀ id : Nat, (after.graph.nodeTable[id]?).map (fun node : Node => (node.id, node.key)) =
    (before.graph.nodeTable[id]?).map fun node => (node.id, node.key)

variable {before middle after catalogue : Catalogue}

/-- Nothing at all has to change. -/
theorem Reprofiled.refl (catalogue : Catalogue) : catalogue.Reprofiled catalogue :=
  ⟨⟨catalogue.graph.nodeTable, rfl⟩, fun _ => rfl⟩

/-- Profiles that are changed twice are changed. -/
theorem Reprofiled.trans (first : before.Reprofiled middle) (second : middle.Reprofiled after) :
    before.Reprofiled after := by
  obtain ⟨_, rfl⟩ := first.rest
  obtain ⟨nodeTable, rfl⟩ := second.rest
  exact ⟨⟨nodeTable, rfl⟩, fun id => (second.nodes id).trans (first.nodes id)⟩

/-- Giving a node that is there another profile changes profiles only. -/
theorem reprofiled_withProfile {id : Nat} {node : Node} (profile : Profile)
    (found : catalogue.graph.nodeTable[id]? = some node) :
    catalogue.Reprofiled (catalogue.withProfile id node profile) := by
  refine ⟨⟨_, rfl⟩, fun other => ?_⟩
  show ((catalogue.graph.withNode id _).nodeTable[other]?).map _ = _
  rw [Graph.nodeTable_withNode]
  by_cases same : id = other
  · subst same
    simp [found]
  · rw [if_neg same]

/-- With the same profiles too, catalogues are the same. -/
theorem Reprofiled.eq (reprofiled : before.Reprofiled after) (sound : before.graph.Sound)
    (soundAfter : after.graph.Sound)
    (profiles : ∀ key, after.graph.profile? key = before.graph.profile? key) : after = before := by
  have tables : after.graph.nodeTable = before.graph.nodeTable := by
    refine Std.ExtTreeMap.ext_getElem? fun id => ?_
    have same := reprofiled.nodes id
    cases found : before.graph.nodeTable[id]? with
    | none => simpa [found] using same
    | some node =>
      rw [found, Option.map_some, Option.map_eq_some_iff] at same
      obtain ⟨other, foundAfter, parts⟩ := same
      rw [Prod.mk.injEq] at parts
      have profile := profiles node.key
      rw [sound.profile?_of_node found, ← parts.2, soundAfter.profile?_of_node foundAfter,
        Option.some.injEq] at profile
      rw [foundAfter, Option.some.injEq]
      cases other
      cases node
      simp_all [Node.profile]
  obtain ⟨nodeTable, rfl⟩ := reprofiled.rest
  simp only at tables
  rw [tables]

/-- A mention of something known is merged into what is known. -/
theorem succeeds_register_of_known {mention : Mention} {profile : Profile}
    (housed : catalogue.Housed []) (family : mention.kind.family = mention.key.family)
    (known : catalogue.graph.profile? mention.key = some profile) :
    Action.Succeeds (register mention) catalogue fun _ after =>
      catalogue.Reprofiled after ∧ after.Housed [] ∧ ∀ key, after.graph.profile? key =
        if key = mention.key then some (mention.joined profile)
        else catalogue.graph.profile? key := by
  obtain ⟨id, node, found, sameKey, rfl⟩ := housed.sound.profile?_eq_some.mp known
  have index : catalogue.graph.nodeByKey? mention.key = some id := by
    rw [← sameKey]
    exact housed.sound.nodeByKey?_eq_some.mpr (Graph.key?_of_node found)
  unfold register
  refine Action.ensures_bind (Action.ensures_get ?_)
  rw [index]
  refine ensures_mergeInto found sameKey (housed.sound.kind_family found) (fun joined => ?_)
    fun outside => outside family
  refine ⟨reprofiled_withProfile _ found, ?_, fun key => ?_⟩
  · exact housed.withNode found rfl rfl (joined.trans (congrArg EntityKey.family sameKey.symm))
  · refine (housed.sound.profile?_withNode found key).trans ?_
    rw [sameKey]
    by_cases same : mention.key = key
    · rw [if_pos same, if_pos same.symm]
      rfl
    · rw [if_neg same, if_neg (Ne.symm same)]

/-- Mentions of what is known are merged one after the other. -/
theorem succeeds_registerAll_of_known {mentions : List Mention} (housed : catalogue.Housed [])
    (family : ∀ mention ∈ mentions, mention.kind.family = mention.key.family)
    (known : ∀ mention ∈ mentions, (catalogue.graph.profile? mention.key).isSome) :
    Action.Succeeds (registerAll mentions) catalogue fun _ after =>
      catalogue.Reprofiled after ∧ after.Housed [] ∧ ∀ key, after.graph.profile? key =
        (catalogue.graph.profile? key).map
          ((mentionsUnder key mentions).foldl fun known mention => mention.joined known) := by
  induction mentions generalizing catalogue with
  | nil =>
    refine Action.ensures_pure ⟨.refl _, housed, fun key => ?_⟩
    simp [mentionsUnder]
  | cons mention rest further =>
    obtain ⟨profile, held⟩ := Option.isSome_iff_exists.mp (known mention List.mem_cons_self)
    refine Action.ensures_bind (Action.ensures_bind ((succeeds_register_of_known housed
      (family mention List.mem_cons_self) held).weaken ?_))
    rintro _ middle ⟨first, housedMiddle, profiles⟩
    refine Action.ensures_pure ?_
    have knownToo : ∀ other ∈ rest, (middle.graph.profile? other.key).isSome := by
      intro other member
      rw [profiles]
      split
      · rfl
      · exact known other (List.mem_cons_of_mem _ member)
    refine (further housedMiddle (fun other member => family other (List.mem_cons_of_mem _ member))
      knownToo).weaken ?_
    rintro _ last ⟨second, housedLast, profilesLast⟩
    refine ⟨first.trans second, housedLast, fun key => ?_⟩
    rw [profilesLast, profiles]
    by_cases same : mention.key = key
    · subst same
      simp [mentionsUnder, held]
    · simp [mentionsUnder, same, Ne.symm same]

end Catalogue

/-- Mentions that agree still do when some of them come again. -/
theorem Agreeing.again {mentions others : List Mention} (agreeing : Agreeing mentions)
    (inside : ∀ mention ∈ others, mention ∈ mentions) : Agreeing (mentions ++ others) := by
  have old : ∀ {mention : Mention}, mention ∈ mentions ++ others → mention ∈ mentions :=
    fun member => (List.mem_append.mp member).elim id (inside _)
  exact fun first firstMember second secondMember =>
    agreeing first (old firstMember) second (old secondMember)

/-- No unit mentions the global namespace. -/
theorem mentionsUnder_global (unit : SourceUnit) : mentionsUnder .global unit.mentions = [] := by
  refine List.filter_eq_nil_iff.mpr fun mention member isGlobal => ?_
  exact (SourceUnit.regular_of_mem_mentions member).not_global (by simpa using isGlobal)

namespace Assembly

variable {settings : Settings} {units earlier later : List SourceUnit} {assembly : Assembly}

/-- Registering the mentions of a unit that was taken up does not change the profile of an entity
for which the unit is told apart. -/
theorem profile_again {unit : SourceUnit} {key : EntityKey}
    (apart : unit.ToldApart (earlier ++ later) key) {profile : Profile}
    (known : knownAfter (allMentions (earlier ++ unit :: later)) key = some profile) :
    (mentionsUnder key unit.mentions).foldl (fun known mention => mention.joined known) profile =
      profile := by
  by_cases declared : key = .global
  · rw [declared, mentionsUnder_global, List.foldl_nil]
  have regular := regular_allMentions (earlier ++ unit :: later)
  obtain ⟨best, described⟩ := described_of_known regular declared known
  refine described.heard_again (fun mention member => ?_) (fun mention member => ?_) ?_
  · obtain ⟨inAll, same⟩ := mem_mentionsUnder.mp member
    exact ⟨regular mention inAll, by rw [same]⟩
  · obtain ⟨inUnit, same⟩ := mem_mentionsUnder.mp member
    exact mem_mentionsUnder.mpr ⟨List.mem_flatMap.mpr ⟨unit, by simp, inUnit⟩, same⟩
  · by_cases takers : ∃ mention ∈ mentionsUnder key unit.mentions,
        best.rank.yields mention.rank = true
    · obtain ⟨mention, member, takes⟩ := takers
      exact .inr (takers_of_unit apart described.top member takes).symm
    · left
      exact List.filter_eq_nil_iff.mpr fun mention member takes =>
        takers ⟨mention, member, takes⟩

/-- What was taken up last under a path is kept as it is when it comes again. -/
theorem keep_again {units : PendingUnits} {unit : Pending}
    (waiting : units[unit.path.components]? = some unit) : units.keep unit = units := by
  unfold PendingUnits.keep
  simp only [waiting]
  refine Std.ExtTreeMap.ext_getElem? fun path => ?_
  rw [Std.ExtTreeMap.getElem?_insert]
  split
  · rename_i same
    rw [← Std.LawfulEqOrd.eq_of_compare same, waiting]
  · rfl

/-- A unit that was taken up among units of other paths can be taken up again. Only what nodes say
may change then, and only of entities that another unit mentions which is shown like this one. -/
theorem TakenUp.reprofiled_again {unit : SourceUnit}
    (taken : TakenUp settings (earlier ++ unit :: later) assembly)
    (distinct : ((earlier ++ unit :: later).map (·.path.components)).Nodup) :
    ∃ catalogue, assembly.mergeUnit unit = ({ assembly with catalogue }, .ok ()) ∧
      assembly.catalogue.Reprofiled catalogue ∧ catalogue.graph.Sound ∧
        ∀ key, unit.ToldApart (earlier ++ later) key →
          catalogue.graph.profile? key = assembly.catalogue.graph.profile? key := by
  have history := taken.history
  have inside : ∀ mention ∈ unit.mentions,
      mention ∈ allMentions (earlier ++ unit :: later) :=
    fun mention member => List.mem_flatMap.mpr ⟨unit, by simp, member⟩
  obtain ⟨_, catalogue, ran, took, _⟩ | ⟨contradicts, _⟩ := history.mergeUnit_cases unit
  · obtain ⟨_, after, ranToo, reprofiled, housedAfter, profiles⟩ :=
      (Catalogue.succeeds_registerAll_of_known history.holds.housed
        (fun mention member => (SourceUnit.regular_of_mem_mentions member).family)
        (fun mention member => by
          rw [history.holds.profile]
          exact knownAfter_isSome (regular_allMentions _) (inside mention member))).run
    rw [ran] at ranToo
    cases ranToo
    have path : (unit.contribution settings).pending.path = unit.path := rfl
    have kept : assembly.units.keep (unit.contribution assembly.settings).pending =
        assembly.units := by
      rw [history.settings]
      refine keep_again ?_
      rw [path]
      exact (taken.waiting distinct).1 unit (by simp)
    refine ⟨catalogue, by rw [took, grown, kept], reprofiled, housedAfter.sound, fun key apart => ?_⟩
    rw [profiles, history.holds.profile]
    cases known : knownAfter (allMentions (earlier ++ unit :: later)) key with
    | none => rfl
    | some profile => rw [Option.map_some, profile_again apart known]
  · exact absurd (Agreeing.again history.agreeing inside) contradicts

/-- Of units of different paths that are offered to an assembly, each one that is taken up can be
taken up once more in the end. No node, no edge, no index and nothing that waits changes, and no
node says anything else but of an entity that another of the units mentions which is shown like
this one. If no other is shown like it, the assembly stays exactly as it is. -/
theorem mergeUnit_again {before after : List SourceUnit} {unit : SourceUnit}
    (distinct : ((before ++ unit :: after).map (·.path.components)).Nodup)
    (accepted : (((empty settings).offered before).mergeUnit unit).2 = .ok ()) :
    let assembly := (empty settings).offered (before ++ unit :: after)
    ∃ catalogue, assembly.mergeUnit unit = ({ assembly with catalogue }, .ok ()) ∧
      assembly.catalogue.Reprofiled catalogue ∧
      (∀ key, unit.ToldApart (before ++ after) key →
        catalogue.graph.profile? key = assembly.catalogue.graph.profile? key) ∧
      ((∀ other ∈ before ++ after, other.path.display ≠ unit.path.display) →
        catalogue = assembly.catalogue) := by
  intro assembly
  obtain ⟨first, firstSublist, takenFirst⟩ :=
    (TakenUp.start : TakenUp settings [] (.empty settings)).offered before
  rw [List.nil_append] at takenFirst
  have took : ((empty settings).offered before).mergeUnit unit =
      ((((empty settings).offered before).mergeUnit unit).1, .ok ()) := by
    rw [← accepted]
  obtain ⟨second, secondSublist, taken⟩ := (takenFirst.next took).offered after
  have all : assembly = ((((empty settings).offered before).mergeUnit unit).1).offered after := by
    simp [assembly, offered]
  rw [List.append_assoc, List.singleton_append, ← all] at taken
  have kept := firstSublist.append (secondSublist.cons_cons unit)
  obtain ⟨catalogue, merged, reprofiled, sound, profiles⟩ :=
    taken.reprofiled_again ((kept.map _).nodup distinct)
  have fewer : ∀ key, unit.ToldApart (before ++ after) key → unit.ToldApart (first ++ second) key :=
    fun key apart other member => apart other ((firstSublist.append secondSublist).subset member)
  refine ⟨catalogue, merged, reprofiled, fun key apart => profiles key (fewer key apart),
    fun different => ?_⟩
  refine reprofiled.eq taken.history.holds.housed.sound sound fun key => profiles key ?_
  exact fewer key fun other member same => absurd same (different other member)

/-- A unit that leaves the catalogue of an assembly as it is leaves the assembly as it is. -/
theorem mergeUnit_unchanged {assembly : Assembly} {catalogue : Catalogue} {unit : SourceUnit}
    (merged : assembly.mergeUnit unit = ({ assembly with catalogue }, .ok ()))
    (same : catalogue = assembly.catalogue) : assembly.mergeUnit unit = (assembly, .ok ()) := by
  subst same
  exact merged

/-- A source file is taken up again after a unit that contradicts it was refused. -/
theorem mergeUnit_again_after_refusal :
    ((((empty {}).offered [headerUnit, sourceUnit]).mergeUnit contraryUnit).2 ≠ .ok ()) ∧
      ((empty {}).offered ([headerUnit] ++ sourceUnit :: [contraryUnit])).mergeUnit sourceUnit =
        ((empty {}).offered ([headerUnit] ++ sourceUnit :: [contraryUnit]), .ok ()) := by
  refine ⟨fun accepted => ?_, ?_⟩
  · have refused : (((empty {}).offered [headerUnit, sourceUnit]).mergeUnit contraryUnit).2 =
        .error (.conflict (.ofText "other.h") ⟨⟨["area"]⟩, .freeFunction, .field⟩) := rfl
    rw [refused] at accepted
    cases accepted
  · obtain ⟨catalogue, merged, _, _, same⟩ :=
      @mergeUnit_again {} [headerUnit] [contraryUnit] sourceUnit (by decide) rfl
    exact mergeUnit_unchanged merged (same (by decide))

/-- Two headers of different paths are shown alike and declare a function in different lines. The
line of the second is known, and once the first header is taken up again it is that of the
first. -/
theorem mergeUnit_again_changes_line :
    let first := strangeUnit 0xFF 1
    let second := strangeUnit 0xFE 2
    ([first, second].map (·.path.components)).Nodup ∧
      (((empty {}).offered []).mergeUnit first).2 = .ok () ∧
      (((empty {}).offered [first]).mergeUnit second).2 = .ok () ∧
      (((empty {}).offered [first, second]).mergeUnit first).2 = .ok () ∧
      knownLine? ((empty {}).offered [first, second]) = some (.ofCount 2) ∧
      knownLine? (((empty {}).offered [first, second]).mergeUnit first).1 = some (.ofCount 1) := by
  refine ⟨by decide, ?_, ?_, ?_, ?_, ?_⟩ <;> decide +kernel

end Assembly

end DeclGraph
