import DeclGraph.Proofs.Catalogue.Relocating
import DeclGraph.Proofs.Merging.Summary

/-!
# The mention that speaks for an entity

Moves merge entities that have been merged from mentions before. What is then known is
still described by one mention that none outranks: it says what that mention says, and a
flag is set when any mention sets it.
-/

namespace DeclGraph

/-- Of some mentions one that none outranks speaks for a profile. -/
structure Profile.SpokenFor (profile : Profile) (among : Mention → Prop) (best : Mention) :
    Prop where
  regular : profile.Regular
  best_mem : among best
  top : ∀ mention, among mention → ¬ mention.rank.Outranks best.rank
  rank : profile.rank = best.rank
  said : ∀ {key : String} {value : Value}, AttributeName.IsPlain key →
    best.attributes[key]? = some value → profile.attributes[key]? = some value
  isSet_iff : ∀ {key : String}, AttributeName.IsPlain key →
    (profile.attributes.isSet key = true ↔
      ∃ mention, among mention ∧ mention.attributes.isSet key = true)

/-- The best of some mentions speaks for what they say together. -/
theorem Described.spokenFor {family : Family} {mentions : List Mention} {best : Mention}
    {profile : Profile} (described : Described family mentions best profile)
    (regular : ∀ mention ∈ mentions, ∃ file, mention.Regular file) :
    profile.SpokenFor (· ∈ mentions) best where
  regular := described.regular
  best_mem := described.best_mem
  top := described.top
  rank := described.rank
  said plain said := (described.told (.ofAttribute family _ plain)).from_best said
  isSet_iff plain := described.isSet_iff regular plain

/-- A profile that is moved is mentioned again as it is. -/
theorem regular_movedMention {profile : Profile} {key : EntityKey} {file : String}
    (source : ScopedName) {target : ScopedName} (targetNamed : target.segments ≠ [])
    (regular : profile.Regular) (family : profile.kind.family = key.family)
    (settled : profile.attributes.isSet AttributeName.implied = false)
    (hasFile : profile.rank.file = some file) :
    (Catalogue.movedMention source target (profile.nodeUnder key)).Regular file where
  family := family
  named _ := by simp [Catalogue.movedMention, ScopedName.descend, targetNamed]
  source := .inl (Attributes.text?_eq_some.mp hasFile)
  isDefinition := rfl
  implied := by
    show profile.attributes[AttributeName.implied]? =
      if profile.attributes.isSet AttributeName.implied then some (.flag true) else none
    rw [settled, if_neg Bool.false_ne_true, Option.eq_none_iff_forall_ne_some]
    intro value held
    have isFlag : AttributeName.implied ∈ AttributeName.flags := by decide
    obtain rfl : value = .flag true := (regular.fits held).flag_iff.mpr isFlag
    rw [← Attributes.isSet_iff, settled] at held
    cases held
  implied_scope := regular.implied_kind
  implied_source implied := by
    have notImplied : profile.attributes.isSet AttributeName.implied = true := implied
    rw [settled] at notImplied
    cases notImplied
  fits := regular.fits

namespace Profile.SpokenFor

variable {profile moved : Profile} {among others : Mention → Prop} {best other : Mention}

/-- Who speaks depends only on which mentions there are. -/
theorem congr (spoken : profile.SpokenFor among best)
    (same : ∀ mention, among mention ↔ others mention) : profile.SpokenFor others best := by
  rwa [show others = among from funext fun mention => propext (same mention).symm]

/-- What speaks for a profile speaks for every profile with these attributes. -/
theorem of_attributes (spoken : profile.SpokenFor among best)
    (same : moved.attributes = profile.attributes) (regular : moved.Regular) :
    moved.SpokenFor among best where
  regular := regular
  best_mem := spoken.best_mem
  top := spoken.top
  rank := by rw [← spoken.rank, Profile.rank, Profile.rank, same]
  said plain said := by rw [same]; exact spoken.said plain said
  isSet_iff plain := by rw [same]; exact spoken.isSet_iff plain

/-- Of the mentions that speak for two profiles one speaks for them together. -/
theorem joined {mention : Mention} {file : String} (known : profile.SpokenFor among best)
    (incoming : moved.SpokenFor others other) (regular : mention.Regular file)
    (attributes : mention.attributes = moved.attributes) :
    (mention.joined profile).SpokenFor (fun either => among either ∨ others either)
      (if profile.rank.yields mention.rank then other else best) := by
  have rank : mention.rank = other.rank := by
    rw [← incoming.rank, Mention.rank, Profile.rank, ← regular.isDefinition, attributes]
  have heardFrom : ∀ {key : String}, AttributeName.IsPlain key →
      (mention.joined profile).attributes[key]? = heard (profile.rank.yields mention.rank)
        profile.attributes[key]? moved.attributes[key]? := by
    intro key plain
    rw [mention.joined_plain profile plain, attributes]
  have flags : ∀ {key : String}, AttributeName.IsPlain key →
      ((mention.joined profile).attributes.isSet key = true ↔
        ∃ either, (among either ∨ others either) ∧ either.attributes.isSet key = true) := by
    intro key plain
    rw [known.regular.isSet_joined regular plain, Bool.or_eq_true, known.isSet_iff plain,
      attributes, incoming.isSet_iff plain]
    simp only [or_and_right, exists_or]
  constructor
  case regular => exact known.regular.joined regular
  case isSet_iff => exact flags
  case best_mem =>
    split
    · exact .inr incoming.best_mem
    · exact .inl known.best_mem
  case rank =>
    rw [known.regular.rank_joined regular, rank, known.rank]
    split <;> rfl
  case top =>
    intro either member
    rw [rank, known.rank]
    cases yields : best.rank.yields other.rank with
    | true =>
      rw [if_pos rfl]
      rcases member with old | new
      · exact Rank.not_outranks_trans (known.top either old) (Rank.not_outranks_of_yields yields)
      · exact incoming.top either new
    | false =>
      rw [if_neg Bool.false_ne_true]
      rcases member with old | new
      · exact known.top either old
      · exact Rank.not_outranks_trans (incoming.top either new)
          (Rank.not_outranks_of_keeps yields)
  case said =>
    intro key value plain said
    rw [heardFrom plain]
    unfold heard
    split at said
    · rw [if_pos ‹_›, incoming.said plain said, Option.some_or]
    · rw [if_neg ‹_›, known.said plain said, Option.some_or]

end Profile.SpokenFor

end DeclGraph
