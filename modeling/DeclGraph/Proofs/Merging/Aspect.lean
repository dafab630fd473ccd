import DeclGraph.Proofs.Catalogue.Registering
import DeclGraph.Proofs.Contribution.Mentions
import DeclGraph.Proofs.Merging.Rank

/-!
# Aspects of mentions

Whatever mentions say about an entity, apart from shared lists and from whether a
scope is implied, is merged in one way: the mention that speaks for the entity is
heard first, and where it is silent what was said before stays. An aspect is
something that is merged so: an attribute, or the kind.
-/

namespace DeclGraph

/-- An attribute that is neither shared nor says that a scope is implied. -/
def AttributeName.IsPlain (key : String) : Prop :=
  key ∉ AttributeName.shared ∧ key ≠ AttributeName.implied

/-- The rank of a mention. -/
def Mention.rank (mention : Mention) : Rank :=
  ⟨mention.isDefinition, mention.attributes.text? AttributeName.sourceFile⟩

/-- The rank of a profile. -/
def Profile.rank (profile : Profile) : Rank :=
  ⟨profile.attributes.isSet AttributeName.isDefinition,
    profile.attributes.text? AttributeName.sourceFile⟩

/-- What is known once a mention was heard: where what was known before gives way
the mention is heard first, and otherwise it fills a gap. -/
def heard {α : Type} (yields : Bool) (known said : Option α) : Option α :=
  if yields then said.or known else known.or said

namespace Mention

variable {mention : Mention} {profile : Profile} {file key : String}

/-- The attributes after a mention are merged by the order of the two ranks. -/
theorem joined_attributes (mention : Mention) (profile : Profile) :
    (mention.joined profile).attributes = mergedAttributes profile.attributes
      mention.attributes (profile.rank.yields mention.rank) := rfl

/-- A plain attribute after a mention is that of the louder side. -/
theorem joined_plain (mention : Mention) (profile : Profile) (plain : AttributeName.IsPlain key) :
    (mention.joined profile).attributes[key]? =
      heard (profile.rank.yields mention.rank) profile.attributes[key]?
        mention.attributes[key]? := by
  rw [joined_attributes, Attributes.getElem?_mergedAttributes plain.2]
  unfold Attributes.filled heard
  simp only [if_neg plain.1]

/-- A node stays implied only while both sides imply it. -/
theorem joined_implied (mention : Mention) (profile : Profile) :
    (mention.joined profile).attributes[AttributeName.implied]? =
      if profile.attributes.isSet AttributeName.implied &&
          mention.attributes.isSet AttributeName.implied then some (.flag true)
      else none :=
  Attributes.getElem?_mergedAttributes_implied _ _ _

/-- A regular mention is flagged as implied exactly when it implies. -/
theorem Regular.isSet_implied (regular : mention.Regular file) :
    mention.attributes.isSet AttributeName.implied = mention.implied := by
  rw [Bool.eq_iff_iff, Attributes.isSet_iff, regular.implied]
  cases mention.implied <;> simp

/-- A regular mention alone makes a profile with its own attributes. -/
theorem Regular.firstProfile_attributes (regular : mention.Regular file) (key : String) :
    mention.firstProfile.attributes[key]? = mention.attributes[key]? := by
  unfold firstProfile Catalogue.initialAttributes
  cases implied : mention.implied with
  | false => rfl
  | true =>
    simp only [if_true, Std.ExtTreeMap.getElem?_insert]
    by_cases same : AttributeName.implied = key
    · subst same
      rw [regular.implied]
      simp [implied]
    · simp [same]

/-- A mention without a file says nothing but that a scope is implied. -/
theorem Regular.silent (regular : mention.Regular file) (noFile : mention.rank.file = none)
    (notImplied : key ≠ AttributeName.implied) : mention.attributes[key]? = none := by
  obtain source | silent := regular.source
  · simp [rank, Attributes.text?_eq_some.mpr source] at noFile
  · exact silent key notImplied

/-- A regular mention ranks by the file that it is made from. -/
theorem Regular.file_of_rank (regular : mention.Regular file) {other : String}
    (held : mention.rank.file = some other) : other = file := by
  have text := Attributes.text?_eq_some.mp held
  obtain source | silent := regular.source
  · rw [source] at text
    cases text
    rfl
  · rw [silent _ (by decide)] at text
    cases text

/-- The flag of implied nodes stays set only while both sides set it. -/
theorem joined_implied_isSet (mention : Mention) (profile : Profile) :
    (mention.joined profile).attributes.isSet AttributeName.implied =
      (profile.attributes.isSet AttributeName.implied &&
        mention.attributes.isSet AttributeName.implied) := by
  rw [Bool.eq_iff_iff, Attributes.isSet_iff, joined_implied]
  cases (profile.attributes.isSet AttributeName.implied &&
    mention.attributes.isSet AttributeName.implied) <;> simp

end Mention

/-- What holds of every profile that arises from regular mentions. -/
structure Profile.Regular (profile : Profile) : Prop where
  fits : ∀ {key : String} {value : Value}, profile.attributes[key]? = some value →
    EntryFits (key, value)
  source_text : ∀ {value : Value}, profile.attributes[AttributeName.sourceFile]? = some value →
    ∃ file, value = .text file
  definition_source : profile.attributes.isSet AttributeName.isDefinition = true →
    profile.attributes[AttributeName.sourceFile]?.isSome
  implied_kind : profile.attributes.isSet AttributeName.implied = true →
    profile.kind = .namespaceScope

namespace Mention.Regular

variable {mention : Mention} {profile : Profile} {file : String}

/-- A regular mention notes no other source file than its own. -/
theorem source_text (regular : mention.Regular file) {value : Value}
    (held : mention.attributes[AttributeName.sourceFile]? = some value) : value = .text file := by
  obtain source | silent := regular.source
  · rw [source] at held
    exact (Option.some.inj held).symm
  · rw [silent _ (by decide)] at held
    cases held

/-- A regular definition notes its source file. -/
theorem definition_source (regular : mention.Regular file) (isDefinition : mention.isDefinition) :
    mention.attributes[AttributeName.sourceFile]? = some (.text file) := by
  obtain source | silent := regular.source
  · exact source
  · have isSet := regular.isDefinition.trans isDefinition
    rw [Attributes.isSet_iff, silent _ (by decide)] at isSet
    cases isSet

/-- A regular mention alone makes a regular profile. -/
theorem firstProfile (regular : mention.Regular file) : mention.firstProfile.Regular where
  fits held := regular.fits (by rwa [regular.firstProfile_attributes] at held)
  source_text held := by
    rw [regular.firstProfile_attributes] at held
    exact ⟨file, regular.source_text held⟩
  definition_source isSet := by
    rw [Attributes.isSet_iff, regular.firstProfile_attributes, ← Attributes.isSet_iff,
      regular.isDefinition] at isSet
    rw [regular.firstProfile_attributes, regular.definition_source isSet]
    rfl
  implied_kind isSet := by
    rw [Attributes.isSet_iff, regular.firstProfile_attributes, ← Attributes.isSet_iff,
      regular.isSet_implied] at isSet
    exact regular.implied_scope isSet

/-- A mention alone makes a profile of its own rank. -/
theorem rank_firstProfile (regular : mention.Regular file) :
    mention.firstProfile.rank = mention.rank := by
  have isDefinition : mention.firstProfile.attributes.isSet AttributeName.isDefinition =
      mention.isDefinition := by
    rw [← regular.isDefinition, Bool.eq_iff_iff, Attributes.isSet_iff, Attributes.isSet_iff,
      regular.firstProfile_attributes]
  unfold Profile.rank Mention.rank
  rw [isDefinition]
  simp only [Attributes.text?, regular.firstProfile_attributes]

/-- A mention has a file, or it has the lowest rank and says nothing. -/
theorem rank_cases (regular : mention.Regular file) :
    mention.rank = ⟨mention.isDefinition, some file⟩ ∨
      (mention.rank = ⟨false, none⟩ ∧
        ∀ key, key ≠ AttributeName.implied → mention.attributes[key]? = none) := by
  unfold Mention.rank
  obtain source | silent := regular.source
  · left
    rw [Attributes.text?_eq_some.mpr source]
  · right
    have noFile : mention.attributes.text? AttributeName.sourceFile = none := by
      unfold Attributes.text?
      rw [silent _ (by decide)]
      rfl
    have noDefinition : mention.isDefinition = false := by
      rw [Bool.eq_false_iff]
      intro isDefinition
      have source := regular.definition_source isDefinition
      rw [silent _ (by decide)] at source
      cases source
    rw [noFile, noDefinition]
    exact ⟨rfl, silent⟩

/-- A mention that speaks for its entity has a file. -/
theorem rank_of_yields (regular : mention.Regular file)
    (yields : profile.rank.yields mention.rank = true) :
    mention.rank = ⟨mention.isDefinition, some file⟩ := by
  obtain rank | ⟨rank, _⟩ := regular.rank_cases
  · exact rank
  · rw [rank, Rank.not_yields_lowest] at yields
    cases yields

end Mention.Regular

/-- A regular profile made by a definition ranks by a file. -/
theorem Profile.Regular.file_of_definition {profile : Profile} (regular : profile.Regular)
    (isDefinition : profile.rank.isDefinition = true) : profile.rank.file.isSome := by
  obtain ⟨value, held⟩ := Option.isSome_iff_exists.mp (regular.definition_source isDefinition)
  obtain ⟨file, rfl⟩ := regular.source_text held
  have text : profile.rank.file = some file := Attributes.text?_eq_some.mpr held
  rw [text]
  rfl

variable {mention : Mention} {profile : Profile} {file : String}

/-- What a merged profile holds under a key was held by one of the two sides, or
is a united list, or says that a scope is implied. -/
theorem Profile.Regular.fits_joined (known : profile.Regular) (regular : mention.Regular file)
    {key : String} {value : Value} (held : (mention.joined profile).attributes[key]? = some value) :
    EntryFits (key, value) := by
  by_cases implied : key = AttributeName.implied
  · subst implied
    rw [mention.joined_implied] at held
    have isFlag : AttributeName.implied ∈ AttributeName.flags := by decide
    have notShared : AttributeName.implied ∉ AttributeName.shared := by decide
    split at held
    · cases held
      exact ⟨by simpa using isFlag, fun shared => absurd shared notShared⟩
    · cases held
  · rw [mention.joined_attributes, Attributes.getElem?_mergedAttributes implied] at held
    have either : ∀ {winner loser : Option Value}, Attributes.filled key winner loser = some value →
        winner = some value ∨ loser = some value ∨ (key ∈ AttributeName.shared ∧
          ∃ first second, value = .texts (sortedUnion first second)) := by
      intro winner loser filled
      unfold Attributes.filled at filled
      split at filled
      · rename_i shared
        split at filled
        · cases filled
          exact .inr (.inr ⟨shared, _, _, rfl⟩)
        · exact .inl filled
      · cases winner with
        | some _ => exact .inl filled
        | none => exact .inr (.inl filled)
    have united : (key ∈ AttributeName.shared ∧
        ∃ first second, value = .texts (sortedUnion first second)) → EntryFits (key, value) := by
      rintro ⟨shared, first, second, rfl⟩
      have notFlag : ∀ name ∈ AttributeName.shared, name ∉ AttributeName.flags := by decide
      exact ⟨by simpa using notFlag key shared,
        fun _ => ⟨_, rfl, sortedUnion_increasing first second⟩⟩
    split at held
    · obtain own | other | union := either held
      · exact regular.fits own
      · exact known.fits other
      · exact united union
    · obtain own | other | union := either held
      · exact known.fits own
      · exact regular.fits other
      · exact united union

/-- The source file is a plain attribute. -/
theorem AttributeName.plain_sourceFile : IsPlain sourceFile := by
  constructor <;> decide

/-- The mark of definitions is a plain attribute. -/
theorem AttributeName.plain_isDefinition : IsPlain isDefinition := by
  constructor <;> decide

/-- A merged flag is set where one of the two sides sets it. -/
theorem Profile.Regular.isSet_joined (known : profile.Regular) (regular : mention.Regular file)
    {key : String} (plain : AttributeName.IsPlain key) :
    (mention.joined profile).attributes.isSet key =
      (profile.attributes.isSet key || mention.attributes.isSet key) := by
  rw [Bool.eq_iff_iff, Bool.or_eq_true]
  simp only [Attributes.isSet_iff, mention.joined_plain profile plain, heard]
  constructor
  · intro held
    split at held <;> simp only [Option.or_eq_some_iff] at held
    · obtain own | ⟨_, other⟩ := held
      · exact .inr own
      · exact .inl other
    · obtain own | ⟨_, other⟩ := held
      · exact .inl own
      · exact .inr other
  · -- A flag that is held at all is set.
    intro either
    have isFlag : key ∈ AttributeName.flags := by
      obtain own | other := either
      · exact (known.fits own).flag_iff.mp rfl
      · exact (regular.fits other).flag_iff.mp rfl
    have ofKnown : ∀ {value : Value}, profile.attributes[key]? = some value →
        value = .flag true := fun held => (known.fits held).flag_iff.mpr isFlag
    have ofMention : ∀ {value : Value}, mention.attributes[key]? = some value →
        value = .flag true := fun held => (regular.fits held).flag_iff.mpr isFlag
    cases held : profile.attributes[key]? with
    | none =>
      cases said : mention.attributes[key]? with
      | none => simp [held, said] at either
      | some value => simp [ofMention said]
    | some value =>
      cases said : mention.attributes[key]? with
      | none => simp [ofKnown held]
      | some other => simp [ofMention said, ofKnown held]

/-- The merged profile ranks like the side that speaks for the entity. -/
theorem Profile.Regular.rank_joined (known : profile.Regular) (regular : mention.Regular file) :
    (mention.joined profile).rank =
      if profile.rank.yields mention.rank then mention.rank else profile.rank := by
  have isDefinition := known.isSet_joined regular AttributeName.plain_isDefinition
  rw [regular.isDefinition] at isDefinition
  have source := mention.joined_plain profile AttributeName.plain_sourceFile
  unfold heard at source
  show Rank.mk _ _ = _
  rw [isDefinition]
  cases yields : profile.rank.yields mention.rank with
  | true =>
    have rank := regular.rank_of_yields yields
    have file_ : mention.attributes[AttributeName.sourceFile]? = some (.text file) :=
      Attributes.text?_eq_some.mp (congrArg Rank.file rank)
    rw [yields, if_pos rfl, file_] at source
    rw [if_pos rfl, rank, Attributes.text?_eq_some.mpr source]
    congr 1
    rw [Bool.eq_iff_iff, Bool.or_eq_true, or_iff_right_iff_imp]
    exact Rank.isDefinition_of_yields yields
  | false =>
    rw [yields, if_neg Bool.false_ne_true] at source
    rw [if_neg Bool.false_ne_true]
    have defines : (profile.attributes.isSet AttributeName.isDefinition || mention.isDefinition) =
        profile.attributes.isSet AttributeName.isDefinition := by
      rw [Bool.eq_iff_iff, Bool.or_eq_true, or_iff_left_iff_imp]
      exact Rank.isDefinition_of_keeps yields
    rw [defines]
    unfold Profile.rank
    congr 1
    cases held : profile.attributes[AttributeName.sourceFile]? with
    | some value =>
      unfold Attributes.text?
      rw [source, held, Option.some_or]
    | none =>
      have noFile : profile.rank.file = none := by simp [Profile.rank, Attributes.text?, held]
      have declares : profile.rank.isDefinition = false := by
        rw [Bool.eq_false_iff]
        intro isDefinition
        have someFile := known.file_of_definition isDefinition
        simp [noFile] at someFile
      have silent := regular.silent (Rank.noFile_of_keeps yields declares noFile)
        (show AttributeName.sourceFile ≠ AttributeName.implied by decide)
      unfold Attributes.text?
      rw [source, held, silent, Option.or_none]

/-- A regular profile stays so with one more regular mention. -/
theorem Profile.Regular.joined (known : profile.Regular) (regular : mention.Regular file) :
    (mention.joined profile).Regular where
  fits := known.fits_joined regular
  source_text := by
    intro value held
    rw [mention.joined_plain profile AttributeName.plain_sourceFile, heard] at held
    split at held <;> simp only [Option.or_eq_some_iff] at held
    · obtain own | ⟨_, other⟩ := held
      · exact ⟨file, regular.source_text own⟩
      · exact known.source_text other
    · obtain own | ⟨_, other⟩ := held
      · exact known.source_text own
      · exact ⟨file, regular.source_text other⟩
  definition_source := by
    intro isSet
    rw [known.isSet_joined regular AttributeName.plain_isDefinition, Bool.or_eq_true,
      regular.isDefinition] at isSet
    rw [mention.joined_plain profile AttributeName.plain_sourceFile, heard]
    have either : (profile.attributes[AttributeName.sourceFile]?).isSome ∨
        (mention.attributes[AttributeName.sourceFile]?).isSome :=
      isSet.imp known.definition_source fun isDefinition => by
        rw [regular.definition_source isDefinition]
        rfl
    split <;> simp only [Option.isSome_or, Bool.or_eq_true]
    · exact either.symm
    · exact either
  implied_kind := by
    intro isSet
    rw [mention.joined_implied_isSet, Bool.and_eq_true, regular.isSet_implied] at isSet
    obtain kept | taken := Mention.mergedKind_cases
      ⟨0, mention.key, profile.kind, profile.attributes⟩ mention
      (incomingWins ⟨0, mention.key, profile.kind, profile.attributes⟩ mention)
    · exact kept.trans (known.implied_kind isSet.1)
    · exact taken.trans (regular.implied_scope isSet.2)

/-- Something that mentions may say about an entity, and that is merged by hearing
the mention that speaks for the entity first. -/
structure Aspect (family : Family) (α : Type) where
  said : Mention → Option α
  known : Profile → Option α
  known_first : ∀ {mention : Mention} {file : String}, mention.Regular file →
    mention.key.family = family → known mention.firstProfile = said mention
  known_joined : ∀ {mention : Mention} {profile : Profile} {file : String},
    mention.Regular file → mention.key.family = family →
      known (mention.joined profile) =
        heard (profile.rank.yields mention.rank) (known profile) (said mention)

namespace Aspect

/-- Aspect a plain attribute. -/
def ofAttribute (family : Family) (key : String) (plain : AttributeName.IsPlain key) :
    Aspect family Value where
  said mention := mention.attributes[key]?
  known profile := profile.attributes[key]?
  known_first regular _ := regular.firstProfile_attributes key
  known_joined _ _ := Mention.joined_plain _ _ plain

/-- The kind that a scope or a callable is said to have. A scope that is only
implied may turn out to be anything, and so may a function. -/
def kindOf (family : Family) (implied : Bool) (kind : EntityKind) : Option EntityKind :=
  match family with
  | .scope => if implied then none else some kind
  | .callable => if kind = .freeFunction then none else some kind
  | .typeAlias | .field | .placeholder => none

/-- Aspect the kind. -/
def ofKind (family : Family) : Aspect family EntityKind where
  said mention := kindOf family mention.implied mention.kind
  known profile :=
    kindOf family (profile.attributes.isSet AttributeName.implied) profile.kind
  known_first := by
    intro mention file regular same
    rw [show mention.firstProfile.attributes.isSet AttributeName.implied = mention.implied by
      rw [Bool.eq_iff_iff, Attributes.isSet_iff, regular.firstProfile_attributes,
        ← Attributes.isSet_iff, regular.isSet_implied]]
    rfl
  known_joined := by
    intro mention profile file regular same
    subst same
    rw [mention.joined_implied_isSet, regular.isSet_implied]
    show kindOf _ _ (mergedKind ⟨0, mention.key, profile.kind, profile.attributes⟩ mention
      (profile.rank.yields mention.rank)) = _
    unfold mergedKind kindOf heard
    cases mention.key.family <;> dsimp only
    case scope =>
      cases profile.attributes.isSet AttributeName.implied <;> cases mention.implied <;>
        cases profile.rank.yields mention.rank <;> simp
    case callable =>
      by_cases plain : mention.kind = .freeFunction <;>
        by_cases known : profile.kind = .freeFunction <;>
        cases profile.rank.yields mention.rank <;> simp [plain, known]
    all_goals simp

end Aspect

end DeclGraph
