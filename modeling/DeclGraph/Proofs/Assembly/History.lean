import DeclGraph.Proofs.Assembly.Finish
import DeclGraph.Proofs.Merging.Summary

/-!
# Histories of assemblies

What an assembly knows follows from the units that it has taken up: every node
holds the summary of the mentions of its entity, and a unit is taken up exactly
when its mentions contradict neither each other nor those before.
-/

namespace DeclGraph

/-- Whether no two of the mentions contradict each other. -/
def Agreeing (mentions : List Mention) : Prop :=
  ∀ first ∈ mentions, ∀ second ∈ mentions, second.contradicts first = false

namespace Mention

variable {first second : Mention}

/-- Mentions do not contradict each other when they are of different names or compatible. -/
theorem not_contradicts_iff :
    second.contradicts first = false ↔ (first.key.name = second.key.name →
      compatible first.key first.kind first.implied second = true) := by
  unfold contradicts
  by_cases named : first.key.name = second.key.name <;> simp [named]

/-- Contradiction is mutual. -/
theorem not_contradicts_comm (agrees : first.contradicts second = false) :
    second.contradicts first = false := by
  rw [not_contradicts_iff] at agrees ⊢
  intro named
  have held := agrees named.symm
  rw [compatible_iff] at held ⊢
  obtain standIn | other | ⟨same, kinds⟩ := held
  · exact .inr (.inl standIn)
  · exact .inl other
  · refine .inr (.inr ⟨same.symm, fun isScope firstKnown secondKnown => ?_⟩)
    exact (kinds (same.trans isScope) secondKnown firstKnown).symm

/-- No mention contradicts itself. -/
theorem contradicts_self (mention : Mention) : mention.contradicts mention = false := by
  simp [contradicts, compatible]

end Mention

/-- Mentions agree when every later one agrees with those before. -/
theorem agreeing_append {earlier later : List Mention} (before : Agreeing earlier) :
    Agreeing (earlier ++ later) ↔
      (∀ mention ∈ later, ∀ other ∈ earlier, mention.contradicts other = false) ∧
      later.Pairwise fun other mention => mention.contradicts other = false := by
  constructor
  · intro agreeing
    constructor
    · exact fun mention member other older => agreeing other (List.mem_append_left _ older) mention
        (List.mem_append_right _ member)
    · refine List.pairwise_of_forall_mem_list fun first firstMember second secondMember => ?_
      exact agreeing first (List.mem_append_right _ firstMember) second
        (List.mem_append_right _ secondMember)
  rintro ⟨across, among⟩
  have inside : ∀ first ∈ later, ∀ second ∈ later, second.contradicts first = false := by
    refine fun first firstMember second secondMember =>
      List.Pairwise.forall_of_forall_of_flip (R := fun other mention : Mention =>
        mention.contradicts other = false) ?_ among ?_ firstMember secondMember
    · exact fun mention _ => mention.contradicts_self
    · exact among.imp Mention.not_contradicts_comm
  intro first firstMember second secondMember
  obtain firstOld | firstNew := List.mem_append.mp firstMember <;>
    obtain secondOld | secondNew := List.mem_append.mp secondMember
  · exact before first firstOld second secondOld
  · exact across second secondNew first firstOld
  · exact Mention.not_contradicts_comm (across first firstNew second secondOld)
  · exact inside first firstNew second secondNew

/-- The mentions of an entity. -/
def mentionsUnder (key : EntityKey) (mentions : List Mention) : List Mention :=
  mentions.filter fun mention => mention.key = key

/-- What is known under a key after some mentions. -/
def knownAfter (mentions : List Mention) (key : EntityKey) : Option Profile :=
  if key = .global then some ⟨.namespaceScope, ∅⟩ else summary (mentionsUnder key mentions)

/-- The mentions under a key are those that have the key. -/
theorem mem_mentionsUnder {key : EntityKey} {mentions : List Mention} {mention : Mention} :
    mention ∈ mentionsUnder key mentions ↔ mention ∈ mentions ∧ mention.key = key := by
  simp [mentionsUnder]

/-- Whether all mentions come from units. -/
def AllRegular (mentions : List Mention) : Prop :=
  ∀ mention ∈ mentions, ∃ file, mention.Regular file

/-- Regular mentions of an entity, of which there is one, come to a profile that the best of them
describes. -/
theorem AllRegular.described {mentions : List Mention} (regular : AllRegular mentions)
    {key : EntityKey} {mention : Mention} (member : mention ∈ mentionsUnder key mentions) :
    ∃ best profile, summary (mentionsUnder key mentions) = some profile ∧
      Described key.family (mentionsUnder key mentions) best profile := by
  refine summary_described (List.ne_nil_of_mem member) fun other otherMember => ?_
  obtain ⟨inAll, rfl⟩ := mem_mentionsUnder.mp otherMember
  exact ⟨regular other inAll, rfl⟩

/-- What is known of a declared entity is described by its best mention. -/
theorem described_of_known {mentions : List Mention} (regular : AllRegular mentions)
    {key : EntityKey} {profile : Profile} (declared : key ≠ .global)
    (known : knownAfter mentions key = some profile) :
    ∃ best, Described key.family (mentionsUnder key mentions) best profile := by
  rw [knownAfter, if_neg declared] at known
  cases listed : mentionsUnder key mentions with
  | nil => rw [listed] at known; cases known
  | cons mention rest =>
    have member : mention ∈ mentionsUnder key mentions := by simp [listed]
    obtain ⟨best, other, same, described⟩ := regular.described member
    rw [known] at same
    cases same
    rw [listed] at described
    exact ⟨best, described⟩

/-- What is known under the key of a mention after one more. -/
theorem knownAfter_concat {mentions : List Mention} {mention : Mention} (key : EntityKey)
    (declared : mention.key ≠ .global) :
    knownAfter (mentions ++ [mention]) key =
      if key = mention.key then some (mention.profileAfter (knownAfter mentions key))
      else knownAfter mentions key := by
  unfold knownAfter mentionsUnder
  by_cases same : key = mention.key
  · subst same
    simp only [if_neg declared, List.filter_append]
    rw [List.filter_cons_of_pos (by simp), List.filter_nil, summary_concat]
    simp
  · rw [List.filter_append, List.filter_cons_of_neg (by simpa using Ne.symm same)]
    simp [same]

/-- What has been mentioned is known. -/
theorem knownAfter_isSome {mentions : List Mention} (regular : AllRegular mentions)
    {mention : Mention} (member : mention ∈ mentions) :
    (knownAfter mentions mention.key).isSome := by
  obtain ⟨file, itself⟩ := regular mention member
  obtain ⟨_, profile, known, _⟩ := regular.described (mem_mentionsUnder.mpr ⟨member, rfl⟩)
  rw [knownAfter, if_neg itself.not_global, known]
  rfl

/-- What is known after some mentions was mentioned, but for the global namespace. -/
theorem knownAfter_isSome_iff {mentions : List Mention} (regular : AllRegular mentions)
    {key : EntityKey} : (knownAfter mentions key).isSome ↔
      key = .global ∨ ∃ mention ∈ mentions, mention.key = key := by
  constructor
  · intro known
    by_cases global : key = .global
    · exact .inl global
    · obtain ⟨profile, held⟩ := Option.isSome_iff_exists.mp known
      obtain ⟨best, described⟩ := described_of_known regular global held
      exact .inr ⟨best, mem_mentionsUnder.mp described.best_mem⟩
  · rintro (rfl | ⟨mention, member, rfl⟩)
    · rfl
    · exact knownAfter_isSome regular member

/-- The kind of a scope that is known for certain is the kind that a mention gives it. -/
theorem exists_kind_of_settled {mentions : List Mention} (regular : AllRegular mentions)
    {key : EntityKey} {profile : Profile} (declared : key ≠ .global) (isScope : key.family = .scope)
    (settled : profile.attributes.isSet AttributeName.implied = false)
    (known : knownAfter mentions key = some profile) :
    ∃ other ∈ mentions, other.key = key ∧ other.implied = false ∧ other.kind = profile.kind := by
  obtain ⟨best, described⟩ := described_of_known regular declared known
  have told : (Aspect.ofKind key.family).known profile = some profile.kind := by
    simp [Aspect.ofKind, Aspect.kindOf, isScope, settled]
  obtain ⟨other, member, said⟩ := (described.told (.ofKind key.family)).source told
  obtain ⟨inAll, same⟩ := mem_mentionsUnder.mp member
  simp only [Aspect.ofKind, Aspect.kindOf, isScope] at said
  cases implied : other.implied with
  | true => simp [implied] at said
  | false => exact ⟨other, inAll, same, implied, by simpa [implied] using said⟩

/-- Whether a mention fits is decided by the mentions before it. -/
theorem fitsIn_iff {mentions : List Mention} {mention : Mention} {file : String}
    (regular : AllRegular mentions) (agreeing : Agreeing mentions) (itself : mention.Regular file) :
    Catalogue.FitsIn (knownAfter mentions) mention ↔
      ∀ other ∈ mentions, mention.contradicts other = false := by
  constructor
  · intro fits other member
    rw [Mention.not_contradicts_iff]
    intro named
    obtain ⟨_, otherRegular⟩ := regular other member
    obtain ⟨profile, known⟩ := Option.isSome_iff_exists.mp (knownAfter_isSome regular member)
    have held := fits _ _ known named
    rw [Mention.compatible_iff] at held ⊢
    obtain standIn | own | ⟨same, agree⟩ := held
    · exact .inl standIn
    · exact .inr (.inl own)
    · refine .inr (.inr ⟨same, fun isScope otherSettled settled => ?_⟩)
      obtain ⟨best, described⟩ := described_of_known regular otherRegular.not_global known
      have notImplied : profile.attributes.isSet AttributeName.implied = false := by
        rw [described.implied, List.all_eq_false]
        exact ⟨other, mem_mentionsUnder.mpr ⟨member, rfl⟩, by simp [otherSettled]⟩
      obtain ⟨third, thirdMember, thirdKey, thirdSettled, thirdKind⟩ :=
        exists_kind_of_settled regular otherRegular.not_global isScope notImplied known
      have both := Mention.not_contradicts_iff.mp (agreeing third thirdMember other member)
        (by rw [thirdKey])
      rw [Mention.compatible_iff, thirdKey] at both
      obtain standIn | standIn | ⟨_, agreeToo⟩ := both
      · simp [isScope] at standIn
      · simp [isScope] at standIn
      · rw [← agreeToo isScope thirdSettled otherSettled, thirdKind]
        exact agree isScope notImplied settled
  · intro agrees key profile known named
    rw [Mention.compatible_iff]
    by_cases declared : key = .global
    · subst declared
      by_cases standIn : mention.key.family = .placeholder
      · exact .inr (.inl standIn)
      · exact absurd (congrArg ScopedName.segments named.symm) (itself.named standIn)
    · obtain ⟨best, described⟩ := described_of_known regular declared known
      obtain ⟨inAll, bestKey⟩ := mem_mentionsUnder.mp described.best_mem
      have held := Mention.not_contradicts_iff.mp (agrees best inAll) (by rw [bestKey, named])
      rw [Mention.compatible_iff, bestKey] at held
      refine held.imp_right (Or.imp_right fun both => ⟨both.1, fun isScope known_ settled => ?_⟩)
      obtain ⟨third, thirdMember, thirdKey, thirdSettled, thirdKind⟩ :=
        exists_kind_of_settled regular declared isScope known_ known
      have thirdHeld := Mention.not_contradicts_iff.mp (agrees third thirdMember)
        (by rw [thirdKey, named])
      rw [Mention.compatible_iff, thirdKey] at thirdHeld
      obtain standIn | standIn | ⟨_, agreeToo⟩ := thirdHeld
      · simp [isScope] at standIn
      · rw [← both.1, isScope] at standIn
        cases standIn
      · rw [← thirdKind]
        exact agreeToo isScope thirdSettled settled

namespace Catalogue

/-- A list of mentions is taken up when each fits to what is known and none
contradicts one before it. -/
theorem firstConflict?_eq_none {catalogue : Catalogue} {mentions : List Mention}
    (earlier : List Mention) :
    catalogue.firstConflict? earlier mentions = none ↔
      (∀ mention ∈ mentions, catalogue.conflict? mention = none) ∧
      (∀ mention ∈ mentions, ∀ other ∈ earlier, mention.contradicts other = false) ∧
      mentions.Pairwise fun other mention => mention.contradicts other = false := by
  induction mentions generalizing earlier with
  | nil => simp [firstConflict?]
  | cons mention rest further =>
    unfold firstConflict?
    have among : mention.conflictAmong? earlier = none ↔
        ∀ other ∈ earlier, mention.contradicts other = false := by
      simp [Mention.conflictAmong?]
    cases known : catalogue.conflict? mention with
    | some conflict => simp [known]
    | none =>
      cases found : mention.conflictAmong? earlier with
      | some conflict =>
        rw [found] at among
        simp only [reduceCtorEq, false_iff, List.forall_mem_cons] at among ⊢
        exact fun all => among all.2.1.1
      | none =>
        simp only [further, List.forall_mem_cons, known, true_and, List.pairwise_cons,
          List.forall_mem_append]
        constructor
        · rintro ⟨fits, both, pairs⟩
          exact ⟨fits, ⟨among.mp found, fun other member => (both other member).1⟩,
            fun other member => (both other member).2.1, pairs⟩
        · rintro ⟨fits, ⟨_, older⟩, first, pairs⟩
          exact ⟨fits, fun other member => ⟨older other member, first other member, by simp⟩, pairs⟩

/-- Whether a catalogue knows exactly what some mentions say. -/
structure Holds (catalogue : Catalogue) (mentions : List Mention) : Prop where
  housed : catalogue.Housed []
  unlinked : catalogue.Unlinked
  moved : catalogue.moved = ∅
  profile : ∀ key, catalogue.graph.profile? key = knownAfter mentions key

/-- At the start nothing has been taken up. -/
theorem holds_empty : empty.Holds [] where
  housed := housed_empty
  unlinked := unlinked_empty
  moved := rfl
  profile key := by
    by_cases global : key = .global
    · subst global
      rfl
    · rw [knownAfter, if_neg global]
      show Graph.empty.profile? key = none
      rw [Graph.sound_empty.profile?_eq_none]
      simp [Graph.empty, Graph.addNode, Graph.nodeByKey?, Ne.symm global]

/-- A regular mention whose surroundings are known is registered and adds itself
to what the catalogue holds. -/
theorem Holds.succeeds_register {catalogue : Catalogue} {mentions : List Mention}
    {mention : Mention} {file : String} (holds : catalogue.Holds mentions)
    (regular : AllRegular mentions) (itself : mention.Regular file)
    (around : mention.key.family ≠ .placeholder →
      AllAround mentions mention.key.name.segments.dropLast) :
    Action.Succeeds (register mention) catalogue fun _ after =>
      after.Holds (mentions ++ [mention]) := by
  refine (ensures_register holds.housed mention).mono ?_ ?_
  · rintro _ after ⟨_, housed, registered⟩
    refine ⟨housed, registered.unlinked holds.unlinked, registered.moved.trans holds.moved,
      fun key => ?_⟩
    rw [registered.profile, holds.profile, knownAfter_concat key itself.not_global]
    split
    · rfl
    · -- The scopes around the mention are known already.
      cases implied : mention.impliedAround key with
      | none => exact Option.or_none
      | some profile =>
        unfold Mention.impliedAround at implied
        split at implied
        · rename_i isAround
          obtain ⟨other, member, rfl⟩ := around isAround.1 key isAround.2
          obtain ⟨known, held⟩ :=
            Option.isSome_iff_exists.mp (knownAfter_isSome regular member)
          rw [held]
          rfl
        · cases implied
  · rintro _ ⟨outside, _⟩
    exact outside itself.family

/-- Regular mentions of which each comes after the scopes around it are
registered, and the catalogue holds them all. -/
theorem Holds.succeeds_registerAll {catalogue : Catalogue} {mentions further : List Mention}
    (holds : catalogue.Holds mentions) (regular : AllRegular (mentions ++ further))
    {earlier : List Mention} (known : ∀ mention ∈ earlier, mention ∈ mentions)
    (grounded : Grounded earlier further) :
    Action.Succeeds (registerAll further) catalogue fun _ after =>
      after.Holds (mentions ++ further) := by
  induction further generalizing catalogue mentions earlier with
  | nil =>
    rw [List.append_nil]
    exact Action.ensures_pure holds
  | cons mention rest next =>
    obtain ⟨file, itself⟩ := regular mention (by simp)
    have before : AllRegular mentions := fun other member => regular other (by simp [member])
    have around : mention.key.family ≠ .placeholder →
        AllAround mentions mention.key.name.segments.dropLast := by
      intro family key isAround
      obtain ⟨other, member, same⟩ := grounded.1 family key isAround
      exact ⟨other, known other member, same⟩
    have all : mentions ++ mention :: rest = (mentions ++ [mention]) ++ rest := by simp
    rw [all] at regular ⊢
    unfold registerAll
    refine Action.ensures_bind (Action.ensures_bind
      ((holds.succeeds_register before itself around).weaken fun _ middle held =>
        Action.ensures_pure ?_))
    refine next held regular (fun other member => ?_) grounded.2
    obtain old | new := List.mem_append.mp member
    · exact List.mem_append_left _ (known other old)
    · exact List.mem_append_right _ new

end Catalogue

/-- The mentions of some units, in order. -/
def allMentions (units : List SourceUnit) : List Mention := units.flatMap (·.mentions)

/-- What units mention is regular. -/
theorem regular_allMentions (units : List SourceUnit) : AllRegular (allMentions units) := by
  intro mention member
  obtain ⟨unit, _, inUnit⟩ := List.mem_flatMap.mp member
  exact ⟨_, SourceUnit.regular_of_mem_mentions inUnit⟩

/-- The mentions of one unit more come last. -/
theorem allMentions_concat (units : List SourceUnit) (unit : SourceUnit) :
    allMentions (units ++ [unit]) = allMentions units ++ unit.mentions := by
  simp [allMentions]

namespace Assembly

/-- The assemblies that have taken up some units, one after the other. -/
inductive TakenUp (settings : Settings) : List SourceUnit → Assembly → Prop where
  | start : TakenUp settings [] (.empty settings)
  | next {units : List SourceUnit} {before after : Assembly} {unit : SourceUnit}
    (earlier : TakenUp settings units before)
    (accepted : before.mergeUnit unit = (after, .ok ())) :
    TakenUp settings (units ++ [unit]) after

/-- What holds of an assembly that has taken up some units. -/
structure History (settings : Settings) (units : List SourceUnit) (assembly : Assembly) :
    Prop where
  settings : assembly.settings = settings
  holds : assembly.catalogue.Holds (allMentions units)
  agreeing : Agreeing (allMentions units)

/-- The assembly that has taken up one more unit, with the catalogue behind it. -/
def grown (assembly : Assembly) (catalogue : Catalogue) (unit : SourceUnit) : Assembly :=
  { assembly with
    catalogue, units := assembly.units.keep (unit.contribution assembly.settings).pending }

variable {settings : Settings} {units : List SourceUnit} {assembly : Assembly}

/-- A unit is taken up when none of its mentions contradicts another one or one
before. Otherwise the assembly stays as it is. -/
theorem History.mergeUnit_cases (history : History settings units assembly) (unit : SourceUnit) :
    (Agreeing (allMentions units ++ unit.mentions) ∧ ∃ catalogue,
      (Catalogue.registerAll unit.mentions).run.run assembly.catalogue = (.ok (), catalogue) ∧
      assembly.mergeUnit unit = (assembly.grown catalogue unit, .ok ()) ∧
      History settings (units ++ [unit]) (assembly.grown catalogue unit)) ∨
    (¬ Agreeing (allMentions units ++ unit.mentions) ∧
      ∃ conflict, assembly.mergeUnit unit = (assembly, .error (.conflict unit.path conflict))) := by
  have regular := regular_allMentions units
  have sound := history.holds.housed.sound
  have fits : ∀ mention ∈ unit.mentions, assembly.catalogue.conflict? mention = none ↔
      ∀ other ∈ allMentions units, mention.contradicts other = false := by
    intro mention member
    rw [Catalogue.conflict?_eq_none sound, funext history.holds.profile]
    exact fitsIn_iff regular history.agreeing (SourceUnit.regular_of_mem_mentions member)
  have accepts : assembly.catalogue.firstConflict? [] unit.mentions = none ↔
      Agreeing (allMentions units ++ unit.mentions) := by
    rw [Catalogue.firstConflict?_eq_none, agreeing_append history.agreeing]
    constructor
    · rintro ⟨fit, _, among⟩
      exact ⟨fun mention member => (fits mention member).mp (fit mention member), among⟩
    · rintro ⟨across, among⟩
      exact ⟨fun mention member => (fits mention member).mpr (across mention member), by simp,
        among⟩
  by_cases agreeing : Agreeing (allMentions units ++ unit.mentions)
  · left
    have all : AllRegular (allMentions units ++ unit.mentions) := by
      rw [← allMentions_concat]
      exact regular_allMentions _
    obtain ⟨_, catalogue, ran, holds⟩ := (history.holds.succeeds_registerAll all
      (by simp) unit.grounded_mentions).run
    refine ⟨agreeing, catalogue, ran, ?_, history.settings, ?_, ?_⟩
    · simp only [mergeUnit, merge, SourceUnit.contribution_mentions, accepts.mpr agreeing, ran,
        grown]
    · rwa [allMentions_concat]
    · rwa [allMentions_concat]
  · right
    refine ⟨agreeing, ?_⟩
    cases found : assembly.catalogue.firstConflict? [] unit.mentions with
    | none => exact absurd (accepts.mp found) agreeing
    | some conflict => exact ⟨_, merge_of_conflict found⟩

/-- What has been taken up holds together: the assembly knows no less and no more than the units
have mentioned. -/
theorem TakenUp.history (taken : TakenUp settings units assembly) :
    History settings units assembly := by
  induction taken with
  | start =>
    refine ⟨rfl, Catalogue.holds_empty, ?_⟩
    exact fun _ member => absurd member List.not_mem_nil
  | @next units before after unit _ accepted history =>
    obtain ⟨_, _, _, took, next⟩ | ⟨_, error, refused⟩ := history.mergeUnit_cases unit
    · rw [accepted] at took
      cases took
      exact next
    · rw [accepted] at refused
      cases refused

/-- What waits under the path of each unit that was taken up, if no two units
have one path. -/
theorem TakenUp.waiting (taken : TakenUp settings units assembly)
    (distinct : (units.map (·.path.components)).Nodup) :
    (∀ unit ∈ units, assembly.units[unit.path.components]? =
      some (unit.contribution settings).pending) ∧
    ∀ path, path ∈ assembly.units → ∃ unit ∈ units, unit.path.components = path := by
  induction taken with
  | start => exact ⟨by simp, fun path member => by simp [empty] at member⟩
  | @next units before after unit earlier accepted further =>
    rw [List.map_append, List.nodup_append] at distinct
    obtain ⟨distinctBefore, _, apart⟩ := distinct
    obtain ⟨waiting, known⟩ := further distinctBefore
    have kept : after.units = before.units.keep (unit.contribution settings).pending := by
      obtain ⟨_, _, _, took, _⟩ | ⟨_, error, refused⟩ := earlier.history.mergeUnit_cases unit
      · rw [accepted] at took
        cases took
        rw [grown, earlier.history.settings]
      · rw [accepted] at refused
        cases refused
    have fresh : before.units[unit.path.components]? = none := by
      rw [Std.ExtTreeMap.getElem?_eq_none]
      intro member
      obtain ⟨other, otherMember, same⟩ := known _ member
      exact apart _ (List.mem_map_of_mem otherMember) _ (by simp) same
    have inserted : after.units =
        before.units.insert unit.path.components (unit.contribution settings).pending := by
      rw [kept]
      unfold PendingUnits.keep
      simp only [show (unit.contribution settings).pending.path = unit.path from rfl, fresh]
    rw [inserted]
    constructor
    · intro other member
      rw [Std.ExtTreeMap.getElem?_insert]
      obtain old | new := List.mem_append.mp member
      · have different : unit.path.components ≠ other.path.components :=
          fun same => apart _ (List.mem_map_of_mem old) _ (by simp) same.symm
        simpa [different] using waiting other old
      · simp [List.mem_singleton.mp new]
    · intro path member
      rw [Std.ExtTreeMap.mem_insert] at member
      obtain same | old := member
      · exact ⟨unit, by simp, Std.LawfulEqOrd.eq_of_compare same⟩
      · obtain ⟨other, otherMember, same⟩ := known path old
        exact ⟨other, List.mem_append_left _ otherMember, same⟩

/-- The assembly after units were offered to it one after the other, whether each
was taken up or not. -/
def offered (assembly : Assembly) (units : List SourceUnit) : Assembly :=
  units.foldl (fun before unit => (before.mergeUnit unit).1) assembly

/-- The units that are taken up of those offered one after the other. -/
def accepted (assembly : Assembly) : List SourceUnit → List SourceUnit
  | [] => []
  | unit :: rest =>
    match assembly.mergeUnit unit with
    | (after, .ok _) => unit :: after.accepted rest
    | (after, .error _) => after.accepted rest

/-- Units are taken up in the order in which they are offered. -/
theorem accepted_sublist (assembly : Assembly) (further : List SourceUnit) :
    (assembly.accepted further).Sublist further := by
  induction further generalizing assembly with
  | nil => exact List.Sublist.refl _
  | cons unit rest next =>
    unfold accepted
    split
    · exact (next _).cons_cons unit
    · exact (next _).cons unit

/-- Of some units offered, those that are taken up decide the assembly. -/
theorem TakenUp.accepted (taken : TakenUp settings units assembly) (further : List SourceUnit) :
    TakenUp settings (units ++ assembly.accepted further) (assembly.offered further) := by
  induction further generalizing units assembly with
  | nil => simpa [Assembly.offered, Assembly.accepted] using taken
  | cons unit rest next =>
    obtain ⟨_, _, _, took, _⟩ | ⟨_, conflict, refused⟩ := taken.history.mergeUnit_cases unit
    · have last := next (taken.next took)
      simpa [Assembly.offered, Assembly.accepted, took] using last
    · simpa [Assembly.offered, Assembly.accepted, refused] using next taken

/-- Units that are offered from the start are taken up as far as they are accepted. -/
theorem takenUp_accepted (settings : Settings) (units : List SourceUnit) :
    TakenUp settings ((Assembly.empty settings).accepted units)
      ((Assembly.empty settings).offered units) := by
  have taken := (TakenUp.start : TakenUp settings [] _).accepted units
  rwa [List.nil_append] at taken

/-- Of further units some are taken up, in their order. -/
theorem TakenUp.offered (taken : TakenUp settings units assembly) (further : List SourceUnit) :
    ∃ accepted, accepted.Sublist further ∧
      TakenUp settings (units ++ accepted) (assembly.offered further) :=
  ⟨assembly.accepted further, assembly.accepted_sublist further, taken.accepted further⟩

/-- Offering the units that were taken up gives the assembly again. -/
theorem TakenUp.offered_eq (taken : TakenUp settings units assembly) :
    (Assembly.empty settings).offered units = assembly := by
  induction taken with
  | start => rfl
  | next _ took again =>
    unfold Assembly.offered at again ⊢
    rw [List.foldl_append, again, List.foldl_cons, List.foldl_nil, took]

/-- A header that declares a function. -/
def headerUnit : SourceUnit where
  path := .ofText "area.h"
  declarations := [{ kind := .freeFunction, name := "area", line := 1, access := some .everyone }]
  directives := []
  parseTime := .zero
  lineCount := 1
  byteCount := 20

/-- A source file that defines the function of the header. -/
def sourceUnit : SourceUnit where
  path := .ofText "area.cpp"
  declarations := [{ kind := .freeFunction, name := "area", line := 3, isDefinition := true }]
  directives := []
  parseTime := .zero
  lineCount := 5
  byteCount := 60

/-- A unit that contradicts both, as it takes the name for a data member. -/
def contraryUnit : SourceUnit where
  path := .ofText "other.h"
  declarations := [{ kind := .field, name := "area", line := 2 }]
  directives := []
  parseTime := .zero
  lineCount := 2
  byteCount := 15

end Assembly

end DeclGraph
