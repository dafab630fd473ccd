import DeclGraph.Proofs.Assembly.History
import DeclGraph.Proofs.Catalogue.Carrying
import DeclGraph.Proofs.Merging.Speaker

/-!
# What a callable is merged from

After moves a callable is merged from all declarations whose keys the moves carry to its
key. One of them that none outranks speaks for it.
-/

namespace DeclGraph

/-- A declaration of a unit is merged into the entity of a key, given the moves. -/
structure MergedInto (units : List SourceUnit) (moves : List Move) (key : EntityKey)
    (unit : SourceUnit) (declaration : Declaration) : Prop where
  unit_mem : unit ∈ units
  declared : declaration ∈ unit.declarations
  carried : declaration.key.carried moves = key

/-- A mention is that of a declaration that is merged into the entity of a key. -/
def MentionedIn (units : List SourceUnit) (moves : List Move) (key : EntityKey)
    (mention : Mention) : Prop :=
  ∃ unit declaration, MergedInto units moves key unit declaration ∧
    mention = declaration.mention unit.path.display unit.declarations

section MergedInto

variable {units : List SourceUnit} {moves : List Move} {key : EntityKey} {unit : SourceUnit}
  {declaration : Declaration}

/-- A declaration that is merged into an entity is of its family. -/
theorem MergedInto.family (merged : MergedInto units moves key unit declaration) :
    declaration.key.family = key.family := by
  rw [← merged.carried, EntityKey.family_carried]

/-- What is merged into a callable declares a callable. -/
theorem MergedInto.kind_family (merged : MergedInto units moves key unit declaration)
    (callable : key.family = .callable) : declaration.kind.family = .callable := by
  rw [← declaration.key_family, merged.family, callable]

/-- After one move more those declarations are merged into an entity that the move carries there and
those that stay there. -/
theorem mergedInto_concat {move : Move} :
    MergedInto units (moves ++ [move]) key unit declaration ↔
      (key.isBelow move.target = true ∧
        MergedInto units moves (key.moved move.target move.source) unit declaration) ∨
      (key.isBelow move.source = false ∧ MergedInto units moves key unit declaration) := by
  have carries : declaration.key.carried (moves ++ [move]) = key ↔
      (key.isBelow move.target = true ∧
        declaration.key.carried moves = key.moved move.target move.source) ∨
      (key.isBelow move.source = false ∧ declaration.key.carried moves = key) := by
    rw [EntityKey.carried_concat, EntityKey.afterMove_eq_iff]
  constructor
  · rintro ⟨member, declared, same⟩
    rcases carries.mp same with ⟨below, came⟩ | ⟨apart, stayed⟩
    · exact .inl ⟨below, member, declared, came⟩
    · exact .inr ⟨apart, member, declared, stayed⟩
  · rintro (⟨below, member, declared, came⟩ | ⟨apart, member, declared, stayed⟩)
    · exact ⟨member, declared, carries.mpr (.inl ⟨below, came⟩)⟩
    · exact ⟨member, declared, carries.mpr (.inr ⟨apart, stayed⟩)⟩

/-- After one move more an entity is mentioned by what the move carries there and by what stays
there. -/
theorem mentionedIn_concat {move : Move} {mention : Mention} :
    MentionedIn units (moves ++ [move]) key mention ↔
      (key.isBelow move.target = true ∧
        MentionedIn units moves (key.moved move.target move.source) mention) ∨
      (key.isBelow move.source = false ∧ MentionedIn units moves key mention) := by
  constructor
  · rintro ⟨unit, declaration, merged, same⟩
    rcases mergedInto_concat.mp merged with ⟨below, came⟩ | ⟨apart, stayed⟩
    · exact .inl ⟨below, unit, declaration, came, same⟩
    · exact .inr ⟨apart, unit, declaration, stayed, same⟩
  · rintro (⟨below, unit, declaration, came, same⟩ | ⟨apart, unit, declaration, stayed, same⟩)
    · exact ⟨unit, declaration, mergedInto_concat.mpr (.inl ⟨below, came⟩), same⟩
    · exact ⟨unit, declaration, mergedInto_concat.mpr (.inr ⟨apart, stayed⟩), same⟩

end MergedInto

/-- Callables that units declare are known where moves carry them, and a declaration that is
merged into a callable speaks for it. -/
structure Catalogue.Gathers (catalogue : Catalogue) (units : List SourceUnit)
    (moves : List Move) : Prop where
  known : ∀ {key : EntityKey} {mention : Mention}, key.family = .callable →
    MentionedIn units moves key mention → (catalogue.graph.profile? key).isSome
  spokenFor : ∀ {key : EntityKey} {profile : Profile}, key.family = .callable →
    catalogue.graph.profile? key = some profile →
      ∃ best, profile.SpokenFor (MentionedIn units moves key) best

/-- What units mention of a callable are their declarations of it. -/
theorem mem_mentionsUnder_iff_mentionedIn {units : List SourceUnit} {key : EntityKey}
    (callable : key.family = .callable) {mention : Mention} :
    mention ∈ mentionsUnder key (allMentions units) ↔ MentionedIn units [] key mention := by
  constructor
  · intro member
    obtain ⟨inAll, rfl⟩ := mem_mentionsUnder.mp member
    obtain ⟨unit, unitMember, inUnit⟩ := List.mem_flatMap.mp inAll
    rcases SourceUnit.mem_mentions_cases inUnit with ⟨declaration, declared, rfl⟩ | ⟨name, kind, _, rfl⟩
    · exact ⟨unit, declaration, ⟨unitMember, declared, rfl⟩, rfl⟩
    · rw [SourceUnit.ofScope_key] at callable
      cases callable
  · rintro ⟨unit, declaration, ⟨unitMember, declared, same⟩, rfl⟩
    exact mem_mentionsUnder.mpr ⟨List.mem_flatMap.mpr ⟨unit, unitMember,
      SourceUnit.mention_mem_mentions declared⟩, same⟩

namespace Catalogue

variable {catalogue after : Catalogue} {units : List SourceUnit} {moves : List Move}

/-- Before any move every callable is merged from what was mentioned of it. -/
theorem Holds.gathers (holds : catalogue.Holds (allMentions units)) :
    catalogue.Gathers units [] where
  known := by
    intro key mention callable mentioned
    obtain ⟨inAll, rfl⟩ := mem_mentionsUnder.mp
      ((mem_mentionsUnder_iff_mentionedIn callable).mpr mentioned)
    rw [holds.profile]
    exact knownAfter_isSome (regular_allMentions units) inAll
  spokenFor := by
    intro key profile callable known
    rw [holds.profile] at known
    obtain ⟨best, described⟩ := described_of_known (regular_allMentions units)
      (by rintro rfl; cases callable) known
    refine ⟨best, (described.spokenFor fun mention member => ?_).congr fun mention =>
      mem_mentionsUnder_iff_mentionedIn callable⟩
    exact regular_allMentions units mention (mem_mentionsUnder.mp member).1

/-- A move makes a callable known under a key by what came with it, together with what was
known there and stays. -/
theorem Moved.profile_of_came {source target : ScopedName}
    (moved : catalogue.Moved after source target) {key : EntityKey} {profile : Profile}
    (below : key.isBelow target = true)
    (came : catalogue.graph.profile? (key.moved target source) = some profile) :
    after.graph.profile? key = some ((movedMention source target
      (profile.nodeUnder (key.moved target source))).profileAfter
        (if key.isBelow source then none else catalogue.graph.profile? key)) := by
  rw [moved.profile, profileMoved?]
  simp only [below, if_true, came]

/-- Where nothing came with a move, a callable is known by what stays. -/
theorem Moved.profile_of_stayed {source target : ScopedName}
    (moved : catalogue.Moved after source target) {key : EntityKey}
    (callable : key.family = .callable)
    (nothing : key.isBelow target = true →
      catalogue.graph.profile? (key.moved target source) = none) :
    after.graph.profile? key =
      if key.isBelow source then none else catalogue.graph.profile? key := by
  have noScope : key.isScopeAround target.segments.dropLast = false := by
    simp [EntityKey.isScopeAround, callable]
  have noOne : (if key.isBelow target then
      catalogue.graph.profile? (key.moved target source) else none) = none := by
    split
    · rename_i below
      exact nothing below
    · rfl
  rw [moved.profile, profileMoved?, noScope, noOne]
  simp

/-- A callable that came with a move and met none is merged from what came. -/
theorem spokenFor_firstProfile {profile : Profile} {among : Mention → Prop} {best : Mention}
    {file : String} {mention : Mention} (spoken : profile.SpokenFor among best)
    (regular : mention.Regular file) (attributes : mention.attributes = profile.attributes)
    (settled : mention.implied = false) : mention.firstProfile.SpokenFor among best := by
  refine spoken.of_attributes ?_ regular.firstProfile
  show initialAttributes mention = profile.attributes
  rw [initialAttributes, settled, if_neg Bool.false_ne_true, attributes]

/-- A callable that comes with a move is mentioned again as it is. -/
theorem Gathers.regular_movedMention (gathers : catalogue.Gathers units moves)
    (housed : catalogue.Housed []) (move : Move) {former : EntityKey} {profile : Profile}
    (callable : former.family = .callable)
    (known : catalogue.graph.profile? former = some profile) :
    ∃ file, (movedMention move.source move.target (profile.nodeUnder former)).Regular file ∧
      profile.attributes.isSet AttributeName.implied = false := by
  obtain ⟨best, spoken⟩ := gathers.spokenFor callable known
  obtain ⟨unit, declaration, _, rfl⟩ := spoken.best_mem
  obtain ⟨id, node, found, rfl, rfl⟩ := housed.sound.profile?_eq_some.mp known
  have family := housed.sound.kind_family found
  have settled : node.attributes.isSet AttributeName.implied = false := by
    rw [Bool.eq_false_iff]
    intro implied
    have kind : node.kind = .namespaceScope := spoken.regular.implied_kind implied
    rw [kind, callable] at family
    cases family
  refine ⟨unit.path.display, DeclGraph.regular_movedMention _ move.target_named spoken.regular family
    settled ?_, settled⟩
  rw [spoken.rank]
  exact Attributes.text?_eq_some.mpr Declaration.mention_sourceFile

/-- A callable that comes with a move is merged from what comes and from what is there. -/
theorem Gathers.spokenFor_came {move : Move} (gathers : catalogue.Gathers units moves)
    (housed : catalogue.Housed []) {key : EntityKey} (callable : key.family = .callable)
    (below : key.isBelow move.target = true) {incoming : Profile}
    (came : catalogue.graph.profile? (key.moved move.target move.source) = some incoming) :
    ∃ best, ((movedMention move.source move.target
      (incoming.nodeUnder (key.moved move.target move.source))).profileAfter
        (if key.isBelow move.source then none else catalogue.graph.profile? key)).SpokenFor
          (MentionedIn units (moves ++ [move]) key) best := by
  have callableBefore : (key.moved move.target move.source).family = .callable := callable
  obtain ⟨other, incomingFor⟩ := gathers.spokenFor callableBefore came
  obtain ⟨file, regular, settled⟩ := gathers.regular_movedMention housed move callableBefore came
  cases apart : key.isBelow move.source with
  | true =>
    refine ⟨other, (spokenFor_firstProfile incomingFor regular rfl settled).congr ?_⟩
    intro mention
    simp [mentionedIn_concat, below, apart]
  | false =>
    rw [if_neg Bool.false_ne_true]
    cases present : catalogue.graph.profile? key with
    | none =>
      have nobody : ∀ mention, ¬ MentionedIn units moves key mention := by
        intro mention mentioned
        have known := gathers.known callable mentioned
        rw [present] at known
        cases known
      refine ⟨other, (spokenFor_firstProfile incomingFor regular rfl settled).congr ?_⟩
      intro mention
      simp [mentionedIn_concat, below, nobody]
    | some profile =>
      obtain ⟨best, spoken⟩ := gathers.spokenFor callable present
      refine ⟨_, (spoken.joined incomingFor regular rfl).congr fun mention => ?_⟩
      simp [mentionedIn_concat, below, apart, or_comm]

/-- Moves keep callables merged from what they carry there. -/
theorem Gathers.moved {move : Move} (gathers : catalogue.Gathers units moves)
    (housed : catalogue.Housed []) (moved : catalogue.Moved after move.source move.target) :
    after.Gathers units (moves ++ [move]) where
  known := by
    intro key mention callable mentioned
    rcases mentionedIn_concat.mp mentioned with ⟨below, came⟩ | ⟨apart, stayed⟩
    · have callableBefore : (key.moved move.target move.source).family = .callable := callable
      have formerly := gathers.known callableBefore came
      obtain ⟨profile, known⟩ := Option.isSome_iff_exists.mp formerly
      rw [moved.profile_of_came below known]
      rfl
    · by_cases came : key.isBelow move.target = true ∧
          (catalogue.graph.profile? (key.moved move.target move.source)).isSome
      · obtain ⟨profile, known⟩ := Option.isSome_iff_exists.mp came.2
        rw [moved.profile_of_came came.1 known]
        rfl
      · rw [moved.profile_of_stayed callable (by simpa using came), apart,
          if_neg Bool.false_ne_true]
        exact gathers.known callable stayed
  spokenFor := by
    intro key profile callable known
    by_cases came : key.isBelow move.target = true ∧
        (catalogue.graph.profile? (key.moved move.target move.source)).isSome
    · obtain ⟨incoming, incomingKnown⟩ := Option.isSome_iff_exists.mp came.2
      rw [moved.profile_of_came came.1 incomingKnown] at known
      obtain rfl := Option.some.inj known
      exact gathers.spokenFor_came housed callable came.1 incomingKnown
    · rw [moved.profile_of_stayed callable (by simpa using came)] at known
      split at known
      · cases known
      · rename_i apart
        obtain ⟨best, spoken⟩ := gathers.spokenFor callable known
        have callableBefore : (key.moved move.target move.source).family = .callable := callable
        have nobody : ∀ mention, ¬ (key.isBelow move.target = true ∧
            MentionedIn units moves (key.moved move.target move.source) mention) :=
          fun mention both => came ⟨both.1, gathers.known callableBefore both.2⟩
        refine ⟨best, spoken.congr fun mention => ?_⟩
        rw [mentionedIn_concat]
        simp [nobody, apart]

/-- After any moves callables are merged from what the moves carry there. -/
theorem Relocated.gathers {start : Catalogue} (relocated : start.Relocated moves after)
    (housed : start.Housed []) (initially : start.Gathers units []) :
    after.Gathers units moves ∧ after.Housed [] := by
  induction relocated with
  | refl => exact ⟨initially, housed⟩
  | step _ moved sofar => exact ⟨sofar.1.moved sofar.2 moved, moved.housed⟩

end Catalogue

end DeclGraph
