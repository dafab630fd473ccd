import DeclGraph.Proofs.Merging.Summary
import Mathlib.Data.List.Induction

/-!
# Hearing mentions again

Mentions that were heard before and are heard again in a row change what is known
for a while: equals of the best one take its place one after the other. In the end
each of them has said again what it said before, and the profile is the same.
-/

namespace DeclGraph

variable {mention best : Mention} {mentions again : List Mention} {profile : Profile}
  {family : Family}

/-- How a profile stands after some of the mentions were heard again. -/
structure HeardAgain (family : Family) (mentions : List Mention) (best : Mention)
    (profile : Profile) (again : List Mention) (current : Profile) : Prop where
  regular : current.Regular
  kind_family : current.kind.family = family
  rank : current.rank = best.rank
  known : ∀ {α : Type} (aspect : Aspect family α),
    aspect.known current = (lastSaid aspect.said best.rank again).or (aspect.known profile)
  shared : ∀ key ∈ AttributeName.shared, current.attributes[key]? =
    (unitedTexts key mentions).map .texts
  implied : current.attributes.isSet AttributeName.implied = mentions.all (·.implied)

/-- A mention that is among those made already adds no text to them. -/
theorem unitedTexts_concat_of_mem {key : String} (member : mention ∈ mentions) :
    unitedTexts key (mentions ++ [mention]) = unitedTexts key mentions := by
  cases united : unitedTexts key mentions with
  | none =>
    rw [unitedTexts_eq_none] at united ⊢
    intro other otherMember
    obtain old | new := List.mem_append.mp otherMember
    · exact united other old
    · exact List.mem_singleton.mp new ▸ united mention member
  | some texts =>
    have same : ∀ other, other ∈ mentions ++ [mention] ↔ other ∈ mentions := by
      intro other
      simp only [List.mem_append, List.mem_singleton, or_iff_left_iff_imp]
      rintro rfl
      exact member
    rw [unitedTexts_eq_some] at united ⊢
    simpa only [same] using united

/-- Hearing one more of the mentions again. -/
theorem HeardAgain.next {current : Profile} {file : String}
    (described : Described family mentions best profile)
    (heardAgain : HeardAgain family mentions best profile again current)
    (member : mention ∈ mentions) (regular : mention.Regular file)
    (same : mention.key.family = family) :
    HeardAgain family mentions best profile (again ++ [mention]) (mention.joined current) where
  regular := heardAgain.regular.joined regular
  kind_family := by
    obtain kept | taken := Mention.mergedKind_cases
      ⟨0, mention.key, current.kind, current.attributes⟩ mention
      (current.rank.yields mention.rank)
    · exact (congrArg EntityKind.family kept).trans heardAgain.kind_family
    · exact (congrArg EntityKind.family taken).trans (regular.family.trans same)
  rank := by
    rw [heardAgain.regular.rank_joined regular, heardAgain.rank]
    split
    · rename_i yields
      obtain better | ⟨equal, _⟩ := Rank.yields_iff.mp yields
      · exact absurd better (described.top mention member)
      · exact equal
    · rfl
  known := by
    intro α aspect
    rw [aspect.known_joined regular same, heardAgain.rank, heardAgain.known, lastSaid_concat]
    unfold heard
    split
    · rw [Option.or_assoc]
    · -- What a mention says that does not take the place of the best one is known.
      have known := (described.told aspect).complete member
      cases said : aspect.said mention with
      | none => rw [Option.or_none]
      | some value =>
        rw [said] at known
        obtain ⟨told, held⟩ := Option.isSome_iff_exists.mp (known rfl)
        rw [held, Option.or_assoc, Option.some_or]
  shared := by
    intro key shared
    have notImplied : key ≠ AttributeName.implied := by
      rintro rfl
      exact absurd shared (by decide)
    obtain ⟨first, second⟩ := filled_unitedTexts regular mentions shared
    rw [unitedTexts_concat_of_mem member] at first second
    rw [mention.joined_attributes, Attributes.getElem?_mergedAttributes notImplied,
      heardAgain.shared key shared]
    split
    · exact first
    · exact second
  implied := by
    rw [mention.joined_implied_isSet, heardAgain.implied, regular.isSet_implied]
    cases all : mentions.all (·.implied) with
    | false => rfl
    | true => simpa using List.all_eq_true.mp all mention member

/-- A kind of a family is known from what is said of it. -/
theorem eq_of_kindOf {first second : EntityKind} {implied : Bool}
    (firstFamily : first.family = family) (secondFamily : second.family = family)
    (settled : implied = true → first = .namespaceScope ∧ second = .namespaceScope)
    (same : Aspect.kindOf family implied first = Aspect.kindOf family implied second) :
    first = second := by
  subst firstFamily
  cases implied with
  | true => exact (settled rfl).1.trans (settled rfl).2.symm
  | false =>
    cases first <;> cases second <;>
      first
        | rfl
        | exact absurd secondFamily (by decide)
        | exact absurd same (by decide)

/-- Mentions of the entity that are heard again are heard one after the other. -/
theorem Described.heardAgain (described : Described family mentions best profile)
    (regular : ∀ mention ∈ mentions, (∃ file, mention.Regular file) ∧ mention.key.family = family)
    (inside : ∀ mention ∈ again, mention ∈ mentions) :
    HeardAgain family mentions best profile again
      (again.foldl (fun known mention => mention.joined known) profile) := by
  induction again using List.reverseRecOn with
  | nil =>
    refine ⟨described.regular, described.kind_family, described.rank, fun aspect => ?_,
      described.shared, described.implied⟩
    rfl
  | append_singleton earlier mention further =>
    have member := inside mention (by simp)
    obtain ⟨⟨file, itself⟩, same⟩ := regular mention member
    rw [List.foldl_append]
    exact (further fun other otherMember => inside other (List.mem_append_left _ otherMember)).next
      described member itself same

/-- Of the attribute of implied entities only the value true is kept. -/
theorem getElem?_implied_iff {attributes : Attributes} {value : Value}
    (fits : ∀ {value : Value}, attributes[AttributeName.implied]? = some value →
      EntryFits (AttributeName.implied, value)) :
    attributes[AttributeName.implied]? = some value ↔
      value = .flag true ∧ attributes.isSet AttributeName.implied = true := by
  have isFlag : AttributeName.implied ∈ AttributeName.flags := by decide
  rw [Attributes.isSet_iff]
  constructor
  · intro there
    have isSet : value = .flag true := (fits there).flag_iff.mpr isFlag
    exact ⟨isSet, isSet ▸ there⟩
  · rintro ⟨rfl, there⟩
    exact there

/-- Where every aspect is known as before, hearing mentions again changed nothing. -/
theorem HeardAgain.eq_of_known {current : Profile}
    (last : HeardAgain family mentions best profile again current)
    (described : Described family mentions best profile)
    (known : ∀ {α : Type} (aspect : Aspect family α), aspect.known current = aspect.known profile) :
    current = profile := by
  have implied : current.attributes.isSet AttributeName.implied =
      profile.attributes.isSet AttributeName.implied := last.implied.trans described.implied.symm
  have attributes : current.attributes = profile.attributes := by
    refine Std.ExtTreeMap.ext_getElem? fun key => ?_
    by_cases isImplied : key = AttributeName.implied
    · subst isImplied
      ext value
      rw [getElem?_implied_iff last.regular.fits, getElem?_implied_iff described.regular.fits,
        implied]
    · by_cases shared : key ∈ AttributeName.shared
      · rw [last.shared key shared, described.shared key shared]
      · exact known (.ofAttribute family key ⟨shared, isImplied⟩)
  have kind : current.kind = profile.kind := by
    have said := known (.ofKind family)
    simp only [Aspect.ofKind, implied] at said
    refine eq_of_kindOf last.kind_family described.kind_family (fun isImplied => ?_) said
    exact ⟨last.regular.implied_kind (implied.trans isImplied),
      described.regular.implied_kind isImplied⟩
  cases current
  cases profile
  simp_all

/-- Mentions that are heard again leave the profile as it was, if either none of
them or all that could take the place of the best one are among them. -/
theorem Described.heard_again (described : Described family mentions best profile)
    (regular : ∀ mention ∈ mentions, (∃ file, mention.Regular file) ∧ mention.key.family = family)
    (inside : ∀ mention ∈ again, mention ∈ mentions)
    (takers : again.filter (fun mention => best.rank.yields mention.rank) = [] ∨
      again.filter (fun mention => best.rank.yields mention.rank) =
        mentions.filter fun mention => best.rank.yields mention.rank) :
    again.foldl (fun known mention => mention.joined known) profile = profile := by
  have last := described.heardAgain regular inside
  refine last.eq_of_known described fun aspect => ?_
  rw [last.known]
  cases said : lastSaid aspect.said best.rank again with
  | none => exact Option.none_or
  | some value =>
    unfold lastSaid at said
    obtain nothing | all := takers
    · rw [nothing] at said
      cases said
    · rw [all] at said
      rw [(described.told aspect).last said]
      rfl

end DeclGraph
