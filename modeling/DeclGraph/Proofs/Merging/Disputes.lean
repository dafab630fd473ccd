import DeclGraph.Proofs.Merging.Summary

/-!
# Disputes between mentions

What the best mention of an entity leaves open is filled in by whichever other mention
came first. That is a matter of order only if two of them fill in different things. Where
nothing is disputed, the profile of the entity follows from its mentions in any order in
which the best of them come in the same order.
-/

namespace DeclGraph

/-- Whether mentions leave no choice of what they say: one of the best of them says it, or
no two of them say different things. -/
def Settled {α : Type} (said : Mention → Option α) (mentions : List Mention) : Prop :=
  (∃ best ∈ mentions, best.rank.file.isSome ∧ (said best).isSome ∧
    ∀ mention ∈ mentions, ¬ mention.rank.Outranks best.rank) ∨
  ∀ first ∈ mentions, ∀ second ∈ mentions, (said first).isSome → (said second).isSome →
    said first = said second

/-- Whether mentions of an entity leave no choice of its attributes and its kind. -/
structure Undisputed (family : Family) (mentions : List Mention) : Prop where
  attributes : ∀ {key : String}, AttributeName.IsPlain key →
    Settled (fun mention => mention.attributes[key]?) mentions
  kind : Settled (fun mention => Aspect.kindOf family mention.implied mention.kind) mentions

variable {mentions others : List Mention} {best other : Mention} {profile otherProfile : Profile}
  {family : Family}

/-- If one of those that could take the place says something, something is said last. -/
theorem lastSaid_isSome {α : Type} {said : Mention → Option α} {rank : Rank} {mention : Mention}
    (member : mention ∈ mentions) (takes : rank.yields mention.rank = true)
    (speaks : (said mention).isSome) : (lastSaid said rank mentions).isSome := by
  unfold lastSaid
  rw [List.findSome?_isSome_iff]
  exact ⟨mention, by simp [member, takes], speaks⟩

/-- The united list of some mentions does not depend on their order. -/
theorem unitedTexts_congr (same : ∀ mention, mention ∈ mentions ↔ mention ∈ others) (key : String) :
    unitedTexts key mentions = unitedTexts key others := by
  ext texts
  simp only [unitedTexts_eq_some, same]

namespace Described

/-- What is settled is known alike from two orders of the same mentions, if those that
could take the place of the best say the same last. -/
theorem known_eq (described : Described family mentions best profile)
    (otherwise_ : Described family others other otherProfile)
    (same : ∀ mention, mention ∈ mentions ↔ mention ∈ others) {α : Type} (aspect : Aspect family α)
    (last : lastSaid aspect.said best.rank mentions = lastSaid aspect.said other.rank others)
    (settled : Settled aspect.said mentions) :
    aspect.known profile = aspect.known otherProfile := by
  have told := described.told aspect
  have toldToo := otherwise_.told aspect
  cases answer : lastSaid aspect.said best.rank mentions with
  | some value => rw [told.last answer, toldToo.last (last ▸ answer)]
  | none =>
    have agree : ∀ first ∈ mentions, ∀ second ∈ mentions, (aspect.said first).isSome →
        (aspect.said second).isSome → aspect.said first = aspect.said second := by
      rcases settled with ⟨speaker, member, someFile, speaks, isTop⟩ | agree
      · have rank : speaker.rank = best.rank := Rank.eq_of_not_outranks
          (described.top speaker member) (isTop best described.best_mem)
        have takes : best.rank.yields speaker.rank = true :=
          Rank.yields_iff.mpr (.inr ⟨rank, someFile⟩)
        have said := lastSaid_isSome member takes speaks
        rw [answer] at said
        cases said
      · exact agree
    cases known : aspect.known profile with
    | none =>
      cases knownToo : aspect.known otherProfile with
      | none => rfl
      | some value =>
        obtain ⟨mention, member, said⟩ := toldToo.source knownToo
        have complete := told.complete ((same mention).mpr member) (by simp [said])
        simp [known] at complete
    | some value =>
      obtain ⟨mention, member, said⟩ := told.source known
      have complete := toldToo.complete ((same mention).mp member) (by simp [said])
      obtain ⟨otherValue, knownToo⟩ := Option.isSome_iff_exists.mp complete
      obtain ⟨further, memberToo, saidToo⟩ := toldToo.source knownToo
      have equal := agree mention member further ((same further).mpr memberToo) (by simp [said])
        (by simp [saidToo])
      rw [knownToo, ← said, ← saidToo, equal]

/-- The profile that undisputed mentions give is the same from both orders. -/
theorem profile_eq (described : Described family mentions best profile)
    (otherwise_ : Described family others other otherProfile)
    (same : ∀ mention, mention ∈ mentions ↔ mention ∈ others)
    (last : ∀ {α : Type} (said : Mention → Option α),
      lastSaid said best.rank mentions = lastSaid said other.rank others)
    (undisputed : Undisputed family mentions) : profile = otherProfile := by
  have implied : profile.attributes.isSet AttributeName.implied =
      otherProfile.attributes.isSet AttributeName.implied := by
    rw [described.implied, otherwise_.implied, Bool.eq_iff_iff, List.all_eq_true, List.all_eq_true]
    simp only [same]
  have attributes : profile.attributes = otherProfile.attributes := by
    ext key : 1
    by_cases shared : key ∈ AttributeName.shared
    · rw [described.shared key shared, otherwise_.shared key shared, unitedTexts_congr same]
    by_cases isImplied : key = AttributeName.implied
    · -- The mark of an implied scope is set or missing.
      subst isImplied
      have isFlag : AttributeName.implied ∈ AttributeName.flags := by decide
      have set_ : ∀ {one : Profile}, one.Regular → one.attributes[AttributeName.implied]? =
          if one.attributes.isSet AttributeName.implied then some (.flag true) else none := by
        intro one regular
        cases held : one.attributes[AttributeName.implied]? with
        | none => simp [Attributes.isSet_iff, held]
        | some value =>
          obtain rfl : value = .flag true := (regular.fits held).flag_iff.mpr isFlag
          simp [Attributes.isSet_iff, held]
      rw [set_ described.regular, set_ otherwise_.regular, implied]
    · have plain : AttributeName.IsPlain key := ⟨shared, isImplied⟩
      exact described.known_eq otherwise_ same (.ofAttribute family key plain) (last _)
        (undisputed.attributes plain)
  have kind : profile.kind = otherProfile.kind := by
    have told : Aspect.kindOf family (profile.attributes.isSet AttributeName.implied) profile.kind =
        Aspect.kindOf family (otherProfile.attributes.isSet AttributeName.implied)
          otherProfile.kind :=
      described.known_eq otherwise_ same (.ofKind family) (last _) undisputed.kind
    have ofFamily := described.kind_family
    have ofFamilyToo := otherwise_.kind_family
    cases family with
    | scope =>
      rw [← implied] at told
      cases isImplied : profile.attributes.isSet AttributeName.implied with
      | true =>
        rw [described.regular.implied_kind isImplied,
          otherwise_.regular.implied_kind (implied ▸ isImplied)]
      | false => simpa [Aspect.kindOf, isImplied] using told
    | callable =>
      unfold Aspect.kindOf at told
      by_cases free : profile.kind = .freeFunction <;>
        by_cases freeToo : otherProfile.kind = .freeFunction <;> simp_all
    | typeAlias | field | placeholder =>
      revert ofFamily ofFamilyToo
      cases profile.kind <;> cases otherProfile.kind <;> simp [EntityKind.family]
  cases profile
  cases otherProfile
  cases attributes
  cases kind
  rfl

end Described

end DeclGraph
