import DeclGraph.Proofs.Assembly.History
import DeclGraph.Proofs.Text.Decoding

/-!
# The sources of mentions

A mention carries the file of its unit as it is shown. Files of different paths may be shown
alike, and then their mentions rank alike. Where the units that mention an entity are shown
differently, all mentions that could take the place of the best one come from one unit.
-/

namespace DeclGraph

variable {units others before after : List SourceUnit} {unit : SourceUnit} {key : EntityKey}

/-- No other unit that mentions an entity is shown like a unit. -/
def SourceUnit.ToldApart (unit : SourceUnit) (others : List SourceUnit) (key : EntityKey) : Prop :=
  ∀ other ∈ others, other.path.display = unit.path.display → mentionsUnder key other.mentions = []

/-- No two units that mention an entity are shown alike. -/
def ToldApart (units : List SourceUnit) (key : EntityKey) : Prop :=
  units.Pairwise fun first second => first.path.display = second.path.display →
    mentionsUnder key first.mentions = [] ∨ mentionsUnder key second.mentions = []

/-- Units that are all shown differently are told apart. -/
theorem toldApart_of_nodup (distinct : (units.map (·.path.display)).Nodup) (key : EntityKey) :
    ToldApart units key := by
  rw [List.Nodup, List.pairwise_map] at distinct
  exact distinct.imp fun different same => absurd same different

/-- Units of different paths that are written as texts are told apart. -/
theorem toldApart_of_texts (distinct : (units.map (·.path.components)).Nodup)
    (written : ∀ unit ∈ units, ∃ text, unit.path = .ofText text) (key : EntityKey) :
    ToldApart units key := by
  refine toldApart_of_nodup ?_ key
  rw [List.Nodup, List.pairwise_map] at distinct ⊢
  refine distinct.imp_of_mem fun {first second} firstMember secondMember different shown => ?_
  obtain ⟨text, ofFirst⟩ := written first firstMember
  obtain ⟨other, ofSecond⟩ := written second secondMember
  rw [ofFirst, ofSecond, FilePath.display_ofText, FilePath.display_ofText] at shown
  exact different (by rw [ofFirst, ofSecond, shown])

/-- Units are told apart in any order. -/
theorem ToldApart.perm (apart : ToldApart units key) (perm : units.Perm others) :
    ToldApart others key :=
  (perm.pairwise_iff fun {_ _} either same => (either same.symm).symm).mp apart

/-- Of units that are told apart, one that mentions the entity is told apart from the others. -/
theorem ToldApart.of_mem (apart : ToldApart (before ++ unit :: after) key)
    (mentioned : mentionsUnder key unit.mentions ≠ []) : unit.ToldApart (before ++ after) key := by
  obtain ⟨_, ofUnit, across⟩ := List.pairwise_append.mp apart
  have later := (List.pairwise_cons.mp ofUnit).1
  intro other member same
  obtain earlier | behind := List.mem_append.mp member
  · exact (across other earlier unit List.mem_cons_self same).resolve_right mentioned
  · exact (later other behind same.symm).resolve_left mentioned

/-- Whatever could take the place of the best mention of an entity carries the file of its unit,
as it is shown. -/
theorem file_of_taker {rank : Rank} {mention : Mention}
    (top : ∀ other ∈ mentionsUnder key (allMentions units), ¬ other.rank.Outranks rank)
    (among : unit ∈ units) (member : mention ∈ mentionsUnder key unit.mentions)
    (takes : rank.yields mention.rank = true) : rank.file = some unit.path.display := by
  obtain ⟨inUnit, sameKey⟩ := mem_mentionsUnder.mp member
  have regular := SourceUnit.regular_of_mem_mentions inUnit
  obtain better | ⟨same, someFile⟩ := Rank.yields_iff.mp takes
  · refine absurd better (top mention (mem_mentionsUnder.mpr ⟨?_, sameKey⟩))
    exact List.mem_flatMap.mpr ⟨unit, among, inUnit⟩
  · obtain ⟨text, held⟩ := Option.isSome_iff_exists.mp someFile
    rw [← same, held, regular.file_of_rank held]

/-- Those that could take the place of the best mention of an entity all come from one unit, if
that is told apart from the others. -/
theorem takers_of_unit {rank : Rank} {mention : Mention}
    (apart : unit.ToldApart (before ++ after) key)
    (top : ∀ other ∈ mentionsUnder key (allMentions (before ++ unit :: after)),
      ¬ other.rank.Outranks rank)
    (member : mention ∈ mentionsUnder key unit.mentions)
    (takes : rank.yields mention.rank = true) :
    ((mentionsUnder key (allMentions (before ++ unit :: after))).filter fun other =>
      rank.yields other.rank) =
    (mentionsUnder key unit.mentions).filter fun other => rank.yields other.rank := by
  have own := file_of_taker top (by simp) member takes
  have nothing : ∀ {sources : List SourceUnit}, (∀ source ∈ sources, source ∈ before ++ after) →
      (mentionsUnder key (allMentions sources)).filter
        (fun other => rank.yields other.rank) = [] := by
    intro sources inside
    refine List.filter_eq_nil_iff.mpr fun other otherMember takesToo => ?_
    obtain ⟨inAll, sameKey⟩ := mem_mentionsUnder.mp otherMember
    obtain ⟨source, sourceMember, inUnit⟩ := List.mem_flatMap.mp inAll
    have ofSource := mem_mentionsUnder.mpr ⟨inUnit, sameKey⟩
    have among : source ∈ before ++ unit :: after := by
      have other := inside source sourceMember
      rw [List.mem_append] at other ⊢
      exact other.imp_right (List.mem_cons_of_mem _)
    have same := file_of_taker top among ofSource takesToo
    rw [own, Option.some.injEq] at same
    exact List.ne_nil_of_mem ofSource (apart source (inside source sourceMember) same.symm)
  have earlier := nothing fun source (member : source ∈ before) => List.mem_append_left _ member
  have later := nothing fun source (member : source ∈ after) => List.mem_append_right _ member
  have split : mentionsUnder key (allMentions (before ++ unit :: after)) =
      mentionsUnder key (allMentions before) ++
        (mentionsUnder key unit.mentions ++ mentionsUnder key (allMentions after)) := by
    simp [allMentions, mentionsUnder]
  rw [split, List.filter_append, List.filter_append, earlier, later, List.nil_append,
    List.append_nil]

end DeclGraph
