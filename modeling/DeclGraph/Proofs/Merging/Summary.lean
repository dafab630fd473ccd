import DeclGraph.Proofs.Merging.Aspect

/-!
# Summaries of mentions

The profile that arises from mentions of one entity is described by the best of
them: it ranks like the best one, it says what the best one says, and it says
nothing that no mention says. Shared lists are united, and a scope stays implied
only while every mention of it is.
-/

namespace DeclGraph

/-- What is known of an entity after mentions of it, taken in order. -/
def summary (mentions : List Mention) : Option Profile :=
  mentions.foldl (fun known mention => some (mention.profileAfter known)) none

/-- The summary with one more mention is that of the others joined with it. -/
theorem summary_concat (mentions : List Mention) (mention : Mention) :
    summary (mentions ++ [mention]) = some (mention.profileAfter (summary mentions)) := by
  simp [summary]

/-- The increasing list of all texts that mentions have under a key, if there is
one that has any list there. -/
def unitedTexts (key : String) (mentions : List Mention) : Option (List String) :=
  if mentions.any fun mention => mention.attributes[key]?.isSome then
    some (sortedUnion [] (mentions.flatMap fun mention =>
      (mention.attributes.texts? key).getD []))
  else none

/-- What was said last by those that could take the place of a rank. -/
def lastSaid {α : Type} (said : Mention → Option α) (rank : Rank) (mentions : List Mention) :
    Option α :=
  (mentions.filter fun mention => rank.yields mention.rank).reverse.findSome? said

/-- What was said last is said by the last mention, if that is not outranked and says something. -/
theorem lastSaid_concat {α : Type} (said : Mention → Option α) (rank : Rank)
    (mentions : List Mention) (mention : Mention) :
    lastSaid said rank (mentions ++ [mention]) =
      if rank.yields mention.rank then (said mention).or (lastSaid said rank mentions)
      else lastSaid said rank mentions := by
  unfold lastSaid
  by_cases takes : rank.yields mention.rank
  · cases answer : said mention <;> simp [takes, answer]
  · simp [takes]

/-- What is known from an aspect after some mentions of which one is the best. -/
structure Aspect.Told {family : Family} {α : Type} (aspect : Aspect family α)
    (mentions : List Mention) (best : Mention) (told : Option α) : Prop where
  from_best : ∀ {value : α}, aspect.said best = some value → told = some value
  source : ∀ {value : α}, told = some value → ∃ mention ∈ mentions, aspect.said mention = some value
  complete : ∀ {mention : Mention}, mention ∈ mentions → (aspect.said mention).isSome → told.isSome
  last : ∀ {value : α}, lastSaid aspect.said best.rank mentions = some value → told = some value

/-- What the profile that arises from mentions is like. -/
structure Described (family : Family) (mentions : List Mention) (best : Mention)
    (profile : Profile) : Prop where
  best_mem : best ∈ mentions
  top : ∀ mention ∈ mentions, ¬ mention.rank.Outranks best.rank
  regular : profile.Regular
  kind_family : profile.kind.family = family
  rank : profile.rank = best.rank
  told : ∀ {α : Type} (aspect : Aspect family α), aspect.Told mentions best (aspect.known profile)
  shared : ∀ key ∈ AttributeName.shared, profile.attributes[key]? =
    (unitedTexts key mentions).map .texts
  implied : profile.attributes.isSet AttributeName.implied = mentions.all (·.implied)

variable {mention best : Mention} {mentions : List Mention} {profile : Profile} {file : String}

/-- A shared list of a regular mention is increasing. -/
theorem Mention.Regular.texts_of_shared (regular : mention.Regular file) {key : String}
    (shared : key ∈ AttributeName.shared) :
    mention.attributes[key]? = none ∨
      ∃ texts, mention.attributes[key]? = some (.texts texts) ∧ Attributes.Increasing texts := by
  cases held : mention.attributes[key]? with
  | none => exact .inl rfl
  | some value =>
    obtain ⟨texts, rfl, increasing⟩ := (regular.fits held).shared shared
    exact .inr ⟨texts, rfl, increasing⟩

/-- The texts united are those of all mentions that have some, each once and in order. -/
theorem unitedTexts_eq_some {key : String} {texts : List String} :
    unitedTexts key mentions = some texts ↔
      Attributes.Increasing texts ∧ (∃ mention ∈ mentions, mention.attributes[key]?.isSome) ∧
        ∀ text, text ∈ texts ↔ ∃ mention ∈ mentions, ∃ own,
          mention.attributes[key]? = some (.texts own) ∧ text ∈ own := by
  have listed : ∀ text, text ∈ sortedUnion [] (mentions.flatMap fun mention =>
      (mention.attributes.texts? key).getD []) ↔ ∃ mention ∈ mentions, ∃ own,
        mention.attributes[key]? = some (.texts own) ∧ text ∈ own := by
    intro text
    simp only [mem_sortedUnion, List.not_mem_nil, false_or, List.mem_flatMap]
    refine exists_congr fun mention => and_congr_right fun _ => ?_
    simp only [← Attributes.texts?_eq_some]
    cases mention.attributes.texts? key <;> simp
  unfold unitedTexts
  simp only [List.any_eq_true]
  constructor
  · intro united
    split at united
    · rename_i carried
      cases united
      exact ⟨sortedUnion_increasing _ _, carried, listed⟩
    · cases united
  · rintro ⟨increasing, carried, same⟩
    rw [if_pos carried, Option.some.injEq]
    refine Attributes.Increasing.eq (sortedUnion_increasing _ _) increasing fun text => ?_
    rw [listed, same]

/-- Nothing is united exactly when no mention has the attribute. -/
theorem unitedTexts_eq_none {key : String} :
    unitedTexts key mentions = none ↔ ∀ mention ∈ mentions, mention.attributes[key]? = none := by
  unfold unitedTexts
  simp

/-- A mention without texts adds none. -/
theorem unitedTexts_concat_of_silent {key : String} (mentions : List Mention)
    (silent : mention.attributes[key]? = none) :
    unitedTexts key (mentions ++ [mention]) = unitedTexts key mentions := by
  have absent : key ∉ mention.attributes := by simpa using silent
  cases united : unitedTexts key mentions with
  | none =>
    rw [unitedTexts_eq_none] at united ⊢
    simpa [or_imp, forall_and, absent] using united
  | some texts =>
    rw [unitedTexts_eq_some] at united ⊢
    simpa [silent, absent] using united

/-- A mention with texts adds them to those of the others. -/
theorem unitedTexts_concat_of_texts {key : String} {own union : List String}
    {mentions : List Mention} (held : mention.attributes[key]? = some (.texts own))
    (increasing : Attributes.Increasing union)
    (members : ∀ text, text ∈ union ↔
      (∃ texts, unitedTexts key mentions = some texts ∧ text ∈ texts) ∨ text ∈ own) :
    unitedTexts key (mentions ++ [mention]) = some union := by
  rw [unitedTexts_eq_some]
  refine ⟨increasing, ⟨mention, by simp, by simp [held]⟩, fun text => (members text).trans ?_⟩
  constructor
  · rintro (⟨texts, united, inTexts⟩ | inOwn)
    · obtain ⟨other, member, rest⟩ := ((unitedTexts_eq_some.mp united).2.2 text).mp inTexts
      exact ⟨other, List.mem_append_left _ member, rest⟩
    · exact ⟨mention, by simp, own, held, inOwn⟩
  · rintro ⟨other, member, texts, otherHeld, inTexts⟩
    obtain before | itself := List.mem_append.mp member
    · cases united : unitedTexts key mentions with
      | none =>
        rw [unitedTexts_eq_none.mp united other before] at otherHeld
        cases otherHeld
      | some all =>
        exact .inl ⟨all, rfl, ((unitedTexts_eq_some.mp united).2.2 text).mpr
          ⟨other, before, texts, otherHeld, inTexts⟩⟩
    · rw [List.mem_singleton.mp itself, held] at otherHeld
      cases otherHeld
      exact .inr inTexts

/-- Increasing texts united with none stay as they are. -/
theorem sortedUnion_nil_of_increasing {texts : List String}
    (increasing : Attributes.Increasing texts) : sortedUnion [] texts = texts :=
  Attributes.Increasing.eq (sortedUnion_increasing _ _) increasing (by simp)

/-- One more mention adds its texts to the united list. -/
theorem filled_unitedTexts (regular : mention.Regular file) (mentions : List Mention) {key : String}
    (shared : key ∈ AttributeName.shared) :
    Attributes.filled key mention.attributes[key]? ((unitedTexts key mentions).map .texts) =
        (unitedTexts key (mentions ++ [mention])).map .texts ∧
      Attributes.filled key ((unitedTexts key mentions).map .texts) mention.attributes[key]? =
        (unitedTexts key (mentions ++ [mention])).map .texts := by
  unfold Attributes.filled
  simp only [if_pos shared]
  obtain silent | ⟨own, held, increasing⟩ := regular.texts_of_shared shared
  · rw [unitedTexts_concat_of_silent mentions silent, silent]
    cases united : unitedTexts key mentions with
    | none => exact ⟨rfl, rfl⟩
    | some texts => simp [sortedUnion_nil_of_increasing (unitedTexts_eq_some.mp united).1]
  · cases united : unitedTexts key mentions with
    | none =>
      have first : unitedTexts key (mentions ++ [mention]) = some own :=
        unitedTexts_concat_of_texts held increasing (by simp [united])
      simp [first, held, sortedUnion_nil_of_increasing increasing]
    | some texts =>
      constructor
      · rw [unitedTexts_concat_of_texts held (sortedUnion_increasing own texts)
          (by simp [united, or_comm])]
        simp [held, Value.texts?]
      · rw [unitedTexts_concat_of_texts held (sortedUnion_increasing texts own) (by simp [united])]
        simp [held, Value.texts?]

/-- What an aspect tells after one more mention that takes the place of the best one. -/
theorem Aspect.Told.taken {family : Family} {α : Type} {aspect : Aspect family α}
    {told : Option α} (before : aspect.Told mentions best told)
    (top : ∀ mention ∈ mentions, ¬ mention.rank.Outranks best.rank)
    (yields : best.rank.yields mention.rank = true) :
    aspect.Told (mentions ++ [mention]) mention ((aspect.said mention).or told) := by
  constructor
  case from_best =>
    intro value said
    rw [said, Option.some_or]
  case source =>
    intro value held
    obtain own | ⟨_, older⟩ := Option.or_eq_some_iff.mp held
    · exact ⟨mention, by simp, own⟩
    · obtain ⟨other, member, said⟩ := before.source older
      exact ⟨other, List.mem_append_left _ member, said⟩
  case complete =>
    intro other member said
    rw [Option.isSome_or, Bool.or_eq_true]
    obtain older | itself := List.mem_append.mp member
    · exact .inr (before.complete older said)
    · exact .inl (List.mem_singleton.mp itself ▸ said)
  case last =>
    intro value said
    rw [lastSaid_concat] at said
    obtain outranks | ⟨equal, _⟩ := Rank.yields_iff.mp yields
    · -- None of the mentions before could take the place of a better one.
      have nothing : lastSaid aspect.said mention.rank mentions = none := by
        unfold lastSaid
        rw [List.filter_eq_nil_iff.mpr]
        · rfl
        · intro other member takes
          exact Rank.not_outranks_trans (Rank.not_outranks_of_yields takes) (top other member)
            outranks
      rw [nothing] at said
      split at said
      · rw [Option.or_none] at said
        rw [said, Option.some_or]
      · cases said
    · rw [equal] at said
      rw [equal] at yields
      rw [if_pos yields] at said
      cases own : aspect.said mention with
      | some _ => rwa [own] at said
      | none =>
        rw [own, Option.none_or] at said
        rw [Option.none_or]
        exact before.last said

/-- What an aspect tells after one more mention that leaves the best one in its place. -/
theorem Aspect.Told.kept {family : Family} {α : Type} {aspect : Aspect family α}
    {told : Option α} (before : aspect.Told mentions best told)
    (stays : best.rank.yields mention.rank = false) :
    aspect.Told (mentions ++ [mention]) best (told.or (aspect.said mention)) := by
  constructor
  case from_best =>
    intro value said
    rw [before.from_best said, Option.some_or]
  case source =>
    intro value held
    obtain older | ⟨_, own⟩ := Option.or_eq_some_iff.mp held
    · obtain ⟨other, member, said⟩ := before.source older
      exact ⟨other, List.mem_append_left _ member, said⟩
    · exact ⟨mention, by simp, own⟩
  case complete =>
    intro other member said
    rw [Option.isSome_or, Bool.or_eq_true]
    obtain older | itself := List.mem_append.mp member
    · exact .inl (before.complete older said)
    · exact .inr (List.mem_singleton.mp itself ▸ said)
  case last =>
    intro value said
    rw [lastSaid_concat, if_neg (by simp [stays])] at said
    rw [before.last said, Option.some_or]

/-- What an aspect tells after one more mention. -/
theorem Aspect.Told.next {family : Family} {α : Type} {aspect : Aspect family α}
    {told : Option α} (before : aspect.Told mentions best told)
    (top : ∀ mention ∈ mentions, ¬ mention.rank.Outranks best.rank) (mention : Mention) :
    aspect.Told (mentions ++ [mention])
      (if best.rank.yields mention.rank then mention else best)
      (heard (best.rank.yields mention.rank) told (aspect.said mention)) := by
  cases yields : best.rank.yields mention.rank with
  | true => exact before.taken top yields
  | false => exact before.kept yields

/-- The first mention of an entity describes it. -/
theorem Described.first {family : Family} (regular : mention.Regular file)
    (same : mention.key.family = family) :
    Described family [mention] mention mention.firstProfile where
  best_mem := List.mem_singleton_self _
  top := by
    intro other member
    rw [List.mem_singleton.mp member]
    exact Rank.not_outranks_self _
  regular := regular.firstProfile
  kind_family := regular.family.trans same
  rank := regular.rank_firstProfile
  told := by
    intro _ aspect
    rw [aspect.known_first regular same]
    constructor
    case from_best => exact fun said => said
    case source => exact fun said => ⟨mention, List.mem_singleton_self _, said⟩
    case complete =>
      intro other member said
      rwa [List.mem_singleton.mp member] at said
    case last =>
      intro value said
      have only := lastSaid_concat aspect.said mention.rank [] mention
      rw [List.nil_append] at only
      rw [only] at said
      have nothing : lastSaid aspect.said mention.rank [] = none := rfl
      rw [nothing, Option.or_none] at said
      split at said
      · exact said
      · cases said
  shared := by
    intro key shared
    rw [regular.firstProfile_attributes]
    have none_ : unitedTexts key [] = none := rfl
    have only := (filled_unitedTexts regular [] shared).1
    rw [none_] at only
    rw [List.nil_append] at only
    rw [← only, Option.map_none]
    simp [Attributes.filled]
  implied := by
    rw [Bool.eq_iff_iff, Attributes.isSet_iff, regular.firstProfile_attributes,
      ← Attributes.isSet_iff, regular.isSet_implied]
    simp

/-- A further mention takes the place of the best one, or leaves it there. -/
theorem Described.next {family : Family} (before : Described family mentions best profile)
    (regular : mention.Regular file) (same : mention.key.family = family) :
    Described family (mentions ++ [mention])
      (if profile.rank.yields mention.rank then mention else best) (mention.joined profile) where
  best_mem := by
    split
    · simp
    · exact List.mem_append_left _ before.best_mem
  top := by
    intro other member
    rw [before.rank]
    cases yields : best.rank.yields mention.rank with
    | true =>
      rw [if_pos rfl]
      obtain older | itself := List.mem_append.mp member
      · exact Rank.not_outranks_trans (before.top other older) (Rank.not_outranks_of_yields yields)
      · rw [List.mem_singleton.mp itself]
        exact Rank.not_outranks_self _
    | false =>
      rw [if_neg Bool.false_ne_true]
      obtain older | itself := List.mem_append.mp member
      · exact before.top other older
      · rw [List.mem_singleton.mp itself]
        exact Rank.not_outranks_of_keeps yields
  regular := before.regular.joined regular
  kind_family := by
    obtain kept | taken := Mention.mergedKind_cases
      ⟨0, mention.key, profile.kind, profile.attributes⟩ mention
      (profile.rank.yields mention.rank)
    · exact (congrArg EntityKind.family kept).trans before.kind_family
    · exact (congrArg EntityKind.family taken).trans (regular.family.trans same)
  rank := by
    rw [before.regular.rank_joined regular]
    split
    · rfl
    · exact before.rank
  told := by
    intro _ aspect
    rw [aspect.known_joined regular same, before.rank]
    exact (before.told aspect).next before.top mention
  shared := by
    intro key shared
    have notImplied : key ≠ AttributeName.implied := by
      rintro rfl
      exact absurd shared (by decide)
    obtain ⟨first, second⟩ := filled_unitedTexts regular mentions shared
    rw [mention.joined_attributes, Attributes.getElem?_mergedAttributes notImplied,
      before.shared key shared]
    split
    · exact first
    · exact second
  implied := by
    rw [mention.joined_implied_isSet, before.implied, regular.isSet_implied]
    simp

/-- Mentions of one entity have a summary, and one of them is the best. -/
theorem summary_described {family : Family} (some_ : mentions ≠ [])
    (regular : ∀ mention ∈ mentions, (∃ file, mention.Regular file) ∧ mention.key.family = family) :
    ∃ best profile, summary mentions = some profile ∧ Described family mentions best profile := by
  obtain ⟨reversed, rfl⟩ : ∃ reversed : List Mention, mentions = reversed.reverse :=
    ⟨mentions.reverse, by simp⟩
  induction reversed with
  | nil => exact absurd rfl some_
  | cons mention earlier further =>
    rw [List.reverse_cons] at regular ⊢
    obtain ⟨⟨file, itself⟩, same⟩ := regular mention (by simp)
    rw [summary_concat]
    cases earlier with
    | nil => exact ⟨mention, _, rfl, .first itself same⟩
    | cons other rest =>
      obtain ⟨best, profile, known, described⟩ := further (by simp)
        fun other member => regular other (List.mem_append_left _ member)
      rw [known]
      exact ⟨_, _, rfl, described.next itself same⟩

/-- A flag is set when some mention sets it. -/
theorem Described.isSet_iff {family : Family} (described : Described family mentions best profile)
    (regular : ∀ mention ∈ mentions, ∃ file, mention.Regular file) {key : String}
    (plain : AttributeName.IsPlain key) : profile.attributes.isSet key = true ↔
      ∃ mention ∈ mentions, mention.attributes.isSet key = true := by
  have told := described.told (.ofAttribute family key plain)
  simp only [Attributes.isSet_iff]
  constructor
  · exact fun held => told.source held
  · rintro ⟨mention, member, held⟩
    obtain ⟨_, mentionRegular⟩ := regular mention member
    have isFlag := (mentionRegular.fits held).flag_iff.mp rfl
    have said : (Aspect.ofAttribute family key plain).said mention = some (.flag true) := held
    obtain ⟨value, there⟩ := Option.isSome_iff_exists.mp (told.complete member (by rw [said]; rfl))
    have isSet : value = .flag true := (described.regular.fits there).flag_iff.mpr isFlag
    rw [isSet] at there
    exact there

end DeclGraph
