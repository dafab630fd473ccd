import DeclGraph.Proofs.Assembly.Sources
import DeclGraph.Proofs.Merging.Disputes

/-!
# The order of units

Units that are all taken up in one order are all taken up in every other, and the graphs
know the same entities in the same scopes. They say the same of every entity of which the
mentions leave no choice, if no two of the units that mention it are shown alike.
-/

namespace DeclGraph

/-- Some of the mentions that agree agree. -/
theorem Agreeing.of_subset {mentions others : List Mention} (agreeing : Agreeing mentions)
    (inside : ∀ mention ∈ others, mention ∈ mentions) : Agreeing others :=
  fun first firstMember second secondMember =>
    agreeing first (inside first firstMember) second (inside second secondMember)

/-- Whether two entities are related, by their keys. -/
def Graph.Relates (graph : Graph) (source : EntityKey) (relation : Relation)
    (target : EntityKey) : Prop :=
  ∃ first second, graph.key? first = some source ∧ graph.key? second = some target ∧
    graph.Related first relation second

namespace Catalogue

/-- Before anything is linked, an entity is related to the scope in which it lies. -/
theorem Housed.relates_iff {catalogue : Catalogue} (housed : catalogue.Housed [])
    (unlinked : catalogue.Unlinked) {source target : EntityKey} {relation : Relation} :
    catalogue.graph.Relates source relation target ↔ relation = .contains ∧
      source = target.holder ∧ target.LiesInScope ∧ (catalogue.graph.profile? target).isSome := by
  constructor
  · rintro ⟨scope, member, scopeKey, memberKey, related⟩
    obtain rfl := unlinked scope member relation related
    obtain ⟨_, key, carried, lies, holds⟩ := housed.contains_iff.mp related
    rw [memberKey] at carried
    cases carried
    rw [scopeKey] at holds
    exact ⟨rfl, Option.some.inj holds, lies, housed.sound.profile?_isSome.mpr ⟨member, memberKey⟩⟩
  · rintro ⟨rfl, rfl, lies, known⟩
    obtain ⟨member, memberKey⟩ := housed.sound.profile?_isSome.mp known
    obtain ⟨scope, scopeKey, related⟩ := housed.exists_holder memberKey lies
    exact ⟨scope, member, scopeKey, memberKey, related⟩

end Catalogue

variable {units others : List SourceUnit} {key : EntityKey}

/-- Units in another order mention the same. -/
theorem mem_allMentions_of_perm (perm : units.Perm others) (mention : Mention) :
    mention ∈ allMentions units ↔ mention ∈ allMentions others := by
  unfold allMentions
  simp only [List.mem_flatMap, perm.mem_iff]

/-- Units in another order mention the same under a key. -/
theorem mem_mentionsUnder_of_perm (perm : units.Perm others) (mention : Mention) :
    mention ∈ mentionsUnder key (allMentions units) ↔
      mention ∈ mentionsUnder key (allMentions others) := by
  rw [mem_mentionsUnder, mem_mentionsUnder, mem_allMentions_of_perm perm]

/-- Those that could take the place of the best mention come in one order, as one unit
holds them all. -/
theorem takers_of_perm {best : Mention} (perm : units.Perm others) (apart : ToldApart units key)
    (member : best ∈ mentionsUnder key (allMentions units))
    (top : ∀ mention ∈ mentionsUnder key (allMentions units),
      ¬ mention.rank.Outranks best.rank) :
    ((mentionsUnder key (allMentions units)).filter fun mention =>
      best.rank.yields mention.rank) =
    (mentionsUnder key (allMentions others)).filter fun mention =>
      best.rank.yields mention.rank := by
  have topToo : ∀ mention ∈ mentionsUnder key (allMentions others),
      ¬ mention.rank.Outranks best.rank :=
    fun mention inOthers => top mention ((mem_mentionsUnder_of_perm perm mention).mpr inOthers)
  cases hasFile : best.rank.file with
  | none =>
    -- Nothing takes the place of a mention without a file but what outranks it.
    have nothing : ∀ {mentions : List Mention},
        (∀ mention ∈ mentions, ¬ mention.rank.Outranks best.rank) →
          mentions.filter (fun mention => best.rank.yields mention.rank) = [] := by
      intro mentions below
      refine List.filter_eq_nil_iff.mpr fun mention inMentions takes => ?_
      rcases Rank.yields_iff.mp takes with better | ⟨same, someFile⟩
      · exact below mention inMentions better
      · rw [same, hasFile] at someFile
        cases someFile
    rw [nothing top, nothing topToo]
  | some file =>
    obtain ⟨inAll, sameKey⟩ := mem_mentionsUnder.mp member
    obtain ⟨unit, unitMember, inUnit⟩ := List.mem_flatMap.mp inAll
    have own := mem_mentionsUnder.mpr ⟨inUnit, sameKey⟩
    have takes : best.rank.yields best.rank = true :=
      Rank.yields_iff.mpr (.inr ⟨rfl, by simp [hasFile]⟩)
    have apartToo : ToldApart others key := apart.perm perm
    have mentioned := List.ne_nil_of_mem own
    obtain ⟨before, after, rfl⟩ := List.append_of_mem unitMember
    obtain ⟨beforeToo, afterToo, rfl⟩ := List.append_of_mem (perm.mem_iff.mp unitMember)
    rw [takers_of_unit (apart.of_mem mentioned) top own takes,
      takers_of_unit (apartToo.of_mem mentioned) topToo own takes]

/-- What is known of an entity whose mentions leave no choice does not depend on the order
of the units, if they are told apart. -/
theorem knownAfter_eq_of_perm (perm : units.Perm others) (apart : ToldApart units key)
    (undisputed : Undisputed key.family (mentionsUnder key (allMentions units))) :
    knownAfter (allMentions units) key = knownAfter (allMentions others) key := by
  by_cases global : key = .global
  · simp [knownAfter, global]
  have regular := regular_allMentions units
  have regularToo := regular_allMentions others
  have known : (knownAfter (allMentions units) key).isSome ↔
      (knownAfter (allMentions others) key).isSome := by
    rw [knownAfter_isSome_iff regular, knownAfter_isSome_iff regularToo]
    simp only [mem_allMentions_of_perm perm]
  cases first : knownAfter (allMentions units) key with
  | none =>
    rw [first] at known
    exact (Option.not_isSome_iff_eq_none.mp fun there => by cases known.mpr there).symm
  | some profile =>
    rw [first] at known
    obtain ⟨other, second⟩ := Option.isSome_iff_exists.mp (known.mp rfl)
    rw [second]
    obtain ⟨best, described⟩ := described_of_known regular global first
    obtain ⟨bestToo, describedToo⟩ := described_of_known regularToo global second
    have same : ∀ mention, mention ∈ mentionsUnder key (allMentions units) ↔
        mention ∈ mentionsUnder key (allMentions others) := mem_mentionsUnder_of_perm perm
    have rank : best.rank = bestToo.rank := Rank.eq_of_not_outranks
      (describedToo.top best ((same best).mp described.best_mem))
      (described.top bestToo ((same bestToo).mpr describedToo.best_mem))
    refine congrArg some (described.profile_eq describedToo same (fun said => ?_) undisputed)
    unfold lastSaid
    rw [← rank, takers_of_perm perm apart described.best_mem described.top]

namespace Assembly

variable {settings : Settings} {assembly : Assembly}

/-- Units whose mentions agree are all taken up. -/
theorem TakenUp.of_agreeing {further : List SourceUnit} (taken : TakenUp settings units assembly)
    (agreeing : Agreeing (allMentions (units ++ further))) :
    TakenUp settings (units ++ further) (assembly.offered further) := by
  induction further generalizing units assembly with
  | nil => simpa [Assembly.offered] using taken
  | cons unit rest next =>
    have all : units ++ unit :: rest = (units ++ [unit]) ++ rest := by simp
    rw [all] at agreeing ⊢
    have among : Agreeing (allMentions units ++ unit.mentions) := by
      refine agreeing.of_subset fun mention member => ?_
      rw [← allMentions_concat] at member
      rw [allMentions, List.flatMap_append]
      exact List.mem_append_left _ member
    rcases taken.history.mergeUnit_cases unit with ⟨_, _, _, took, _⟩ | ⟨contrary, _⟩
    · have last := next (taken.next took) agreeing
      simpa [Assembly.offered, took] using last
    · exact absurd among contrary

/-- What assemblies have in common that have taken up the same units, each in its order. -/
structure Alike (units : List SourceUnit) (first second : Assembly) : Prop where
  known : ∀ key, (first.catalogue.graph.profile? key).isSome ↔
    (second.catalogue.graph.profile? key).isSome
  related : ∀ source relation target, first.catalogue.graph.Relates source relation target ↔
    second.catalogue.graph.Relates source relation target
  undisputed : ∀ key : EntityKey, ToldApart units key →
    Undisputed key.family (mentionsUnder key (allMentions units)) →
    first.catalogue.graph.profile? key = second.catalogue.graph.profile? key

/-- Units that were taken up in one order are taken up in every order. The entities are
the same then, related in the same way, and of each whose mentions leave no choice the
graphs say the same. -/
theorem TakenUp.of_perm (taken : TakenUp settings units assembly) (perm : units.Perm others) :
    ∃ other, TakenUp settings others other ∧ Alike units assembly other := by
  have holds := taken.history.holds
  have agreeing : Agreeing (allMentions others) := taken.history.agreeing.of_subset
    fun mention => (mem_allMentions_of_perm perm mention).mpr
  have takenToo : TakenUp settings others ((Assembly.empty settings).offered others) :=
    TakenUp.start.of_agreeing agreeing
  have holdsToo := takenToo.history.holds
  have known : ∀ key, (assembly.catalogue.graph.profile? key).isSome ↔
      (((Assembly.empty settings).offered others).catalogue.graph.profile? key).isSome := by
    intro key
    rw [holds.profile, holdsToo.profile, knownAfter_isSome_iff (regular_allMentions units),
      knownAfter_isSome_iff (regular_allMentions others)]
    simp only [mem_allMentions_of_perm perm]
  refine ⟨_, takenToo, known, ?_, ?_⟩
  · intro source relation target
    rw [holds.housed.relates_iff holds.unlinked, holdsToo.housed.relates_iff holdsToo.unlinked,
      known target]
  · intro key apart undisputed
    rw [holds.profile, holdsToo.profile]
    exact knownAfter_eq_of_perm perm apart undisputed

end Assembly

end DeclGraph
