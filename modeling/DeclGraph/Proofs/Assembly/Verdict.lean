import DeclGraph.Proofs.Assembly.History

/-!
# Verdicts on units

An assembly keeps one merged node for each entity and no history. Its verdict on a unit
is still a verdict on the history: the unit is taken up exactly when what it mentions can
follow everything mentioned before, in the unit and in the units that were taken up.
Units that were refused play no part in it.
-/

namespace DeclGraph

/-- Whether a mention can speak of what an earlier one spoke of, if their names are one. -/
def Mention.CanFollow (mention earlier : Mention) : Prop :=
  earlier.key.name = mention.key.name →
    compatible earlier.key earlier.kind earlier.implied mention = true

namespace Assembly

variable {settings : Settings} {units : List SourceUnit} {assembly : Assembly}

/-- An assembly takes up a unit exactly when the mentions of the unit agree with each
other and with those before. -/
theorem History.mergeUnit_ok_iff (history : History settings units assembly) (unit : SourceUnit) :
    (assembly.mergeUnit unit).2 = .ok () ↔ Agreeing (allMentions units ++ unit.mentions) := by
  rcases history.mergeUnit_cases unit with ⟨agreeing, _, _, took, _⟩ | ⟨contrary, _, refused⟩
  · simp [took, agreeing]
  · simp [refused, contrary]

/-- A unit is taken up exactly when each of its mentions can follow the mentions before it
in the unit and all mentions of the units taken up before. It is refused for a conflict
only, and units that were refused have left no trace. -/
theorem verdict_of_mentions (settings : Settings) (offers : List SourceUnit) (unit : SourceUnit) :
    let assembly := (Assembly.empty settings).offered offers
    let accepted := (Assembly.empty settings).accepted offers
    ((assembly.mergeUnit unit).2 = .ok () ↔
      ((unit.contribution settings).mentions.Pairwise fun earlier mention =>
        mention.CanFollow earlier) ∧
      ∀ mention ∈ (unit.contribution settings).mentions, ∀ former ∈ accepted,
        ∀ earlier ∈ (former.contribution settings).mentions, mention.CanFollow earlier) ∧
    (∀ error, (assembly.mergeUnit unit).2 = .error error →
      ∃ conflict, error = .conflict unit.path conflict) ∧
    (Assembly.empty settings).offered accepted = assembly := by
  intro assembly accepted
  have taken : TakenUp settings accepted assembly :=
    (TakenUp.start : TakenUp settings [] _).accepted offers
  have history := taken.history
  refine ⟨?_, ?_, taken.offered_eq⟩
  · have follows : ∀ {mention earlier : Mention},
        mention.contradicts earlier = false ↔ mention.CanFollow earlier := Mention.not_contradicts_iff
    have before : ∀ {mention : Mention},
        (∀ former ∈ accepted, ∀ earlier ∈ former.mentions, mention.CanFollow earlier) ↔
          ∀ earlier ∈ allMentions accepted, mention.contradicts earlier = false := by
      intro mention
      simp only [allMentions, List.mem_flatMap, follows]
      constructor
      · rintro all earlier ⟨former, member, inFormer⟩
        exact all former member earlier inFormer
      · exact fun all former member earlier inFormer => all earlier ⟨former, member, inFormer⟩
    rw [history.mergeUnit_ok_iff, agreeing_append history.agreeing]
    simp only [SourceUnit.contribution_mentions, before, follows]
    exact And.comm
  · intro error failed
    rcases history.mergeUnit_cases unit with ⟨_, _, _, took, _⟩ | ⟨_, conflict, refused⟩
    · simp [took] at failed
    · rw [refused] at failed
      cases failed
      exact ⟨conflict, rfl⟩

end Assembly

end DeclGraph
