import DeclGraph.Proofs.Assembly.Sources

/-!
# The best mention of an entity

However many units mention an entity, what its node says is determined by the best of
its mentions, and by the last one of several that are equally good. Only shared lists,
flags and whether a scope is implied depend on all of them. Where the units are told
apart the order in which they are taken up does not matter, as equals all come from one
unit. Two files that are shown alike are not told apart, and then the last one decides.
-/

namespace DeclGraph

/-- A mention is the best one of its entity when none outranks it and when it
comes after its equals in its unit. -/
structure IsBest (units : List SourceUnit) (key : EntityKey) (best : Mention) : Prop where
  last : ∃ unit ∈ units, ∃ front back, mentionsUnder key unit.mentions = front ++ best :: back ∧
    ∀ later ∈ back, best.rank.Outranks later.rank
  top : ∀ mention ∈ mentionsUnder key (allMentions units), ¬ mention.rank.Outranks best.rank

/-- A mention speaks last when none outranks it and it outranks all that come after it. -/
structure SpeaksLast (mentions : List Mention) (best : Mention) : Prop where
  last : ∃ front back, mentions = front ++ best :: back ∧
    ∀ later ∈ back, best.rank.Outranks later.rank
  top : ∀ mention ∈ mentions, ¬ mention.rank.Outranks best.rank

/-- What a node says, given all mentions of its entity and the best of them. -/
structure Node.DescribedBy (node : Node) (mentions : List Mention) (best : Mention) : Prop where
  attributes : ∀ {key : String} {value : Value}, key ∉ AttributeName.shared →
    key ≠ AttributeName.implied → best.attributes[key]? = some value →
      node.attributes[key]? = some value
  shared : ∀ key ∈ AttributeName.shared,
    node.attributes[key]? = (unitedTexts key mentions).map .texts
  flags : ∀ key, key ≠ AttributeName.implied → (node.attributes.isSet key = true ↔
    ∃ mention ∈ mentions, mention.attributes.isSet key = true)
  implied : node.attributes.isSet AttributeName.implied = true ↔
    ∀ mention ∈ mentions, mention.implied = true
  kind : node.key.family = .scope → best.rank.file.isSome → node.kind = best.kind

/-- Of the mentions of a rank that nothing outranks one is the last. -/
theorem exists_last_of_rank {rank : Rank} {mentions : List Mention}
    (some_ : ∃ mention ∈ mentions, mention.rank = rank)
    (top : ∀ mention ∈ mentions, ¬ mention.rank.Outranks rank) :
    ∃ front best back, mentions = front ++ best :: back ∧ best.rank = rank ∧
      ∀ later ∈ back, rank.Outranks later.rank := by
  induction mentions with
  | nil =>
    obtain ⟨_, member, _⟩ := some_
    cases member
  | cons mention rest further =>
    by_cases later : ∃ other ∈ rest, other.rank = rank
    · obtain ⟨front, best, back, rfl, same, below⟩ :=
        further later fun other member => top other (List.mem_cons_of_mem _ member)
      exact ⟨mention :: front, best, back, rfl, same, below⟩
    · obtain ⟨found, member, same⟩ := some_
      obtain rfl | inRest := List.mem_cons.mp member
      · refine ⟨[], found, rest, rfl, same, fun other otherMember => ?_⟩
        refine Classical.byContradiction fun notBetter => later ⟨other, otherMember, ?_⟩
        exact Rank.eq_of_not_outranks (top other (List.mem_cons_of_mem _ otherMember)) notBetter
      · exact absurd ⟨found, inRest, same⟩ later

/-- What the last of its equals says was said last. -/
theorem lastSaid_of_last {α : Type} {said : Mention → Option α} {best : Mention}
    {front back : List Mention} {value : α} (itself : best.rank.yields best.rank = true)
    (below : ∀ later ∈ back, best.rank.yields later.rank = false)
    (bestSaid : said best = some value) :
    lastSaid said best.rank (front ++ best :: back) = some value := by
  have nothing : back.filter (fun mention => best.rank.yields mention.rank) = [] :=
    List.filter_eq_nil_iff.mpr fun later member => by simp [below later member]
  simp [lastSaid, itself, nothing, bestSaid]

variable {units : List SourceUnit} {key : EntityKey} {mentions : List Mention} {best top : Mention}
  {mark : String}

/-- Of some mentions one speaks last. -/
theorem exists_speaksLast (member : top ∈ mentions)
    (isTop : ∀ mention ∈ mentions, ¬ mention.rank.Outranks top.rank) :
    ∃ best, SpeaksLast mentions best := by
  obtain ⟨front, best, back, split, rank, below⟩ :=
    exists_last_of_rank ⟨top, member, rfl⟩ isTop
  exact ⟨best, ⟨front, back, split, by rwa [rank]⟩, by rwa [rank]⟩

/-- What speaks last is one of the mentions. -/
theorem SpeaksLast.mem (speaks : SpeaksLast mentions best) : best ∈ mentions := by
  obtain ⟨front, back, rfl, _⟩ := speaks.last
  simp

/-- What the mention that speaks last says was said last by those of its rank, if it has a
file. -/
theorem SpeaksLast.lastSaid {α : Type} {said : Mention → Option α} {value : α}
    (speaks : SpeaksLast mentions best) (someFile : best.rank.file.isSome)
    (bestSaid : said best = some value) :
    DeclGraph.lastSaid said best.rank mentions = some value := by
  obtain ⟨front, back, rfl, below⟩ := speaks.last
  have itself : best.rank.yields best.rank = true := Rank.yields_iff.mpr (.inr ⟨rfl, someFile⟩)
  refine lastSaid_of_last itself (fun later member => ?_) bestSaid
  rw [Bool.eq_false_iff]
  exact fun yields => Rank.not_outranks_of_yields yields (below later member)

/-- The best mention of an entity is a mention of it. -/
theorem IsBest.mem (isBest : IsBest units key best) :
    best ∈ mentionsUnder key (allMentions units) := by
  obtain ⟨unit, member, front, back, split, _⟩ := isBest.last
  have inUnit : best ∈ mentionsUnder key unit.mentions := by simp [split]
  obtain ⟨inMentions, same⟩ := mem_mentionsUnder.mp inUnit
  exact mem_mentionsUnder.mpr ⟨List.mem_flatMap.mpr ⟨unit, member, inMentions⟩, same⟩

/-- Every entity that is mentioned has a best mention. -/
theorem exists_isBest (member : top ∈ mentionsUnder key (allMentions units))
    (isTop : ∀ mention ∈ mentionsUnder key (allMentions units), ¬ mention.rank.Outranks top.rank) :
    ∃ best, IsBest units key best := by
  obtain ⟨inAll, same⟩ := mem_mentionsUnder.mp member
  obtain ⟨unit, unitMember, inUnit⟩ := List.mem_flatMap.mp inAll
  have inside : ∀ mention ∈ mentionsUnder key unit.mentions,
      mention ∈ mentionsUnder key (allMentions units) := by
    intro mention mentionMember
    obtain ⟨listed, sameKey⟩ := mem_mentionsUnder.mp mentionMember
    exact mem_mentionsUnder.mpr ⟨List.mem_flatMap.mpr ⟨unit, unitMember, listed⟩, sameKey⟩
  obtain ⟨front, best, back, split, rank, below⟩ :=
    exists_last_of_rank ⟨top, mem_mentionsUnder.mpr ⟨inUnit, same⟩, rfl⟩
      fun mention mentionMember => isTop mention (inside mention mentionMember)
  refine ⟨best, ⟨unit, unitMember, front, back, split, ?_⟩, ?_⟩
  · rwa [rank]
  · rwa [rank]

/-- What the best mention says was said last by those of its rank, if it has a file: its equals
all come from its own unit where units are told apart. -/
theorem IsBest.lastSaid {α : Type} {said : Mention → Option α} {value : α}
    (isBest : IsBest units key best) (apart : ToldApart units key)
    (someFile : best.rank.file.isSome) (bestSaid : said best = some value) :
    DeclGraph.lastSaid said best.rank (mentionsUnder key (allMentions units)) = some value := by
  obtain ⟨unit, unitMember, front, back, split, below⟩ := isBest.last
  obtain ⟨unitsBefore, unitsAfter, rfl⟩ := List.append_of_mem unitMember
  have member : best ∈ mentionsUnder key unit.mentions := by simp [split]
  have speaks : SpeaksLast (mentionsUnder key unit.mentions) best := by
    refine ⟨⟨front, back, split, below⟩, fun mention mentioned => isBest.top mention ?_⟩
    obtain ⟨inUnit, same⟩ := mem_mentionsUnder.mp mentioned
    exact mem_mentionsUnder.mpr ⟨List.mem_flatMap.mpr ⟨unit, unitMember, inUnit⟩, same⟩
  have takers := takers_of_unit (apart.of_mem (List.ne_nil_of_mem member)) isBest.top member
    (Rank.yields_iff.mpr (.inr ⟨rfl, someFile⟩))
  have ofUnit := speaks.lastSaid someFile bestSaid
  unfold DeclGraph.lastSaid at ofUnit ⊢
  rwa [takers]

/-- What mentions share are lists, which are never set. -/
theorem isSet_of_shared {attributes : Attributes}
    (fits : ∀ {key : String} {value : Value}, attributes[key]? = some value → EntryFits (key, value))
    (shared : mark ∈ AttributeName.shared) : ¬ attributes.isSet mark = true := by
  intro isSet
  have notFlag : ∀ name ∈ AttributeName.shared, name ∉ AttributeName.flags := by decide
  exact notFlag mark shared ((fits (Attributes.isSet_iff.mp isSet)).flag_iff.mp rfl)

/-- Every mark but that of implied nodes is set when some mention sets it. -/
theorem Described.marked_iff {family : Family} {profile : Profile}
    (described : Described family mentions best profile)
    (regular : ∀ mention ∈ mentions, ∃ file, mention.Regular file)
    (notImplied : mark ≠ AttributeName.implied) : profile.attributes.isSet mark = true ↔
      ∃ mention ∈ mentions, mention.attributes.isSet mark = true := by
  by_cases shared : mark ∈ AttributeName.shared
  · refine iff_of_false (isSet_of_shared described.regular.fits shared) ?_
    rintro ⟨mention, member, isSet⟩
    obtain ⟨_, itself⟩ := regular mention member
    exact isSet_of_shared itself.fits shared isSet
  · exact described.isSet_iff regular ⟨shared, notImplied⟩

/-- A mention that ranks by a file does not imply its scope. -/
theorem Mention.Regular.settled {mention : Mention} {file : String}
    (regular : mention.Regular file) (someFile : mention.rank.file.isSome) :
    mention.implied = false := by
  rw [Bool.eq_false_iff]
  intro implied
  have noFile := regular.implied_source implied
  obtain ⟨text, held⟩ := Option.isSome_iff_exists.mp someFile
  rw [Attributes.text?_eq_some.mp held] at noFile
  cases noFile

/-- Where the kind of a scope is known, it is the kind of the profile. -/
theorem Profile.kind_of_known {profile : Profile} {kind : EntityKind}
    (known : (Aspect.ofKind .scope).known profile = some kind) : profile.kind = kind := by
  simp only [Aspect.ofKind, Aspect.kindOf] at known
  split at known
  · cases known
  · exact Option.some.inj known

namespace Assembly

/-- A node says what a mention says that none outranks, if that was said last by those of its
rank. -/
theorem History.describedBy {settings : Settings} {assembly : Assembly}
    (history : History settings units assembly) {node : Node}
    (listed : node ∈ assembly.catalogue.graph.nodes) (declared : node.key ≠ .global)
    (member : best ∈ mentionsUnder node.key (allMentions units))
    (isTop : ∀ mention ∈ mentionsUnder node.key (allMentions units),
      ¬ mention.rank.Outranks best.rank)
    (last : ∀ {α : Type} {said : Mention → Option α} {value : α}, best.rank.file.isSome →
      said best = some value →
        lastSaid said best.rank (mentionsUnder node.key (allMentions units)) = some value) :
    node.DescribedBy (mentionsUnder node.key (allMentions units)) best := by
  have regular := regular_allMentions units
  have found := history.holds.housed.sound.mem_nodes.mp listed
  have known := history.holds.housed.sound.profile?_of_node found
  rw [history.holds.profile] at known
  obtain ⟨top, described⟩ := described_of_known regular declared known
  have rank : best.rank = top.rank :=
    Rank.eq_of_not_outranks (described.top best member) (isTop top described.best_mem)
  obtain ⟨file, itself⟩ := regular best (mem_mentionsUnder.mp member).1
  have told : ∀ {α : Type} (aspect : Aspect node.key.family α) {value : α},
      best.rank.file.isSome → aspect.said best = some value →
        aspect.known node.profile = some value := by
    intro α aspect value someFile bestSaid
    refine (described.told aspect).last ?_
    rw [← rank]
    exact last someFile bestSaid
  constructor
  case attributes =>
    intro key value notShared notImplied bestSaid
    cases hasFile : best.rank.file with
    | none =>
      rw [itself.silent hasFile notImplied] at bestSaid
      cases bestSaid
    | some _ =>
      exact told (.ofAttribute _ key ⟨notShared, notImplied⟩) (by simp [hasFile]) bestSaid
  case shared => exact described.shared
  case flags =>
    exact fun key notImplied => described.marked_iff
      (fun mention member => regular mention (mem_mentionsUnder.mp member).1) notImplied
  case implied =>
    show node.profile.attributes.isSet AttributeName.implied = true ↔ _
    rw [described.implied, List.all_eq_true]
  case kind =>
    intro isScope someFile
    have bestSaid : (Aspect.ofKind node.key.family).said best = some best.kind := by
      simp [Aspect.ofKind, Aspect.kindOf, isScope, itself.settled someFile]
    have heldKind := told _ someFile bestSaid
    rw [isScope] at heldKind
    exact Profile.kind_of_known heldKind

/-- Every node but that of the global namespace stands for an entity that was mentioned. It says
what the mention says that speaks last, and where the units that mention the entity are told
apart, it says what the best mention says whatever the order of the units. -/
theorem TakenUp.node_describedBy {settings : Settings} {assembly : Assembly}
    (taken : TakenUp settings units assembly) {node : Node}
    (listed : node ∈ assembly.catalogue.graph.nodes) (declared : node.key ≠ .global) :
    ((∃ best, SpeaksLast (mentionsUnder node.key (allMentions units)) best) ∧
      ∀ best, SpeaksLast (mentionsUnder node.key (allMentions units)) best →
        node.DescribedBy (mentionsUnder node.key (allMentions units)) best) ∧
    ((∃ best, IsBest units node.key best) ∧
      (ToldApart units node.key → ∀ best, IsBest units node.key best →
        node.DescribedBy (mentionsUnder node.key (allMentions units)) best)) := by
  have history := taken.history
  have known := history.holds.housed.sound.profile?_of_node
    (history.holds.housed.sound.mem_nodes.mp listed)
  rw [history.holds.profile] at known
  obtain ⟨top, described⟩ := described_of_known (regular_allMentions units) declared known
  refine ⟨⟨exists_speaksLast described.best_mem described.top, fun best speaks => ?_⟩,
    exists_isBest described.best_mem described.top, fun apart best isBest => ?_⟩
  · exact history.describedBy listed declared speaks.mem speaks.top speaks.lastSaid
  · exact history.describedBy listed declared isBest.mem isBest.top (isBest.lastSaid apart)

/-- Of a header and a source file the source file describes the function. -/
theorem node_describedBy_definition :
    ∃ node ∈ ((empty {}).offered [headerUnit, sourceUnit]).catalogue.graph.nodes,
      node.key = .callable ⟨["area"]⟩ "()" ∧ (∃ best, IsBest [headerUnit, sourceUnit] node.key best) ∧
        ∀ best, IsBest [headerUnit, sourceUnit] node.key best →
          node.DescribedBy
            (mentionsUnder node.key (allMentions [headerUnit, sourceUnit])) best := by
  have first : TakenUp {} ([] ++ [headerUnit]) ((empty {}).offered [headerUnit]) :=
    .next .start rfl
  have taken : TakenUp {} ([headerUnit] ++ [sourceUnit])
      ((empty {}).offered [headerUnit, sourceUnit]) := first.next rfl
  have known : ((empty {}).offered [headerUnit, sourceUnit]).catalogue.graph.nodes.getLast?.map
      (·.key) = some (.callable ⟨["area"]⟩ "()") := rfl
  obtain ⟨node, isLast, key⟩ := Option.map_eq_some_iff.mp known
  have listed := List.mem_of_getLast? isLast
  obtain ⟨_, exists_, best⟩ := taken.node_describedBy listed (by rw [key]; decide)
  exact ⟨node, listed, key, exists_, best (toldApart_of_nodup (by decide) _)⟩

/-- The declaration of a function in a line. -/
def functionIn (line : Nat) : Declaration := { kind := .freeFunction, name := "f", line }

/-- A header that declares the function in a line. Its path is no text. -/
def strangeUnit (byte : UInt8) (line : Nat) : SourceUnit where
  path := ⟨[0x61, byte, 0x2E, 0x68]⟩
  declarations := [functionIn line]
  directives := []
  parseTime := .zero
  lineCount := 5
  byteCount := 20

/-- The line in which an assembly knows the function of the headers to stand. -/
def knownLine? (assembly : Assembly) : Option Value := do
  let profile ← assembly.catalogue.graph.profile? (.callable ⟨["f"]⟩ "()")
  profile.attributes[AttributeName.line]?

/-- Two headers of different paths are shown alike, so that their mentions of the function are
equally good. The node says what the header says that was taken up last, in either order, and not
what the best mention of the other header says. -/
theorem not_describedBy_of_shownAlike :
    let first := strangeUnit 0xFF 1
    let second := strangeUnit 0xFE 2
    ([first, second].map (·.path.components)).Nodup ∧
      TakenUp {} [first, second] ((empty {}).offered [first, second]) ∧
      TakenUp {} [second, first] ((empty {}).offered [second, first]) ∧
      knownLine? ((empty {}).offered [first, second]) = some (.ofCount 2) ∧
      knownLine? ((empty {}).offered [second, first]) = some (.ofCount 1) ∧
      ∃ node ∈ ((empty {}).offered [first, second]).catalogue.graph.nodes, node.key ≠ .global ∧
        ∃ best, IsBest [first, second] node.key best ∧
          ¬ node.DescribedBy (mentionsUnder node.key (allMentions [first, second])) best := by
  intro first second
  have one : TakenUp {} ([] ++ [first]) ((empty {}).offered [first]) := .next .start rfl
  have other : TakenUp {} ([] ++ [second]) ((empty {}).offered [second]) := .next .start rfl
  have taken : TakenUp {} [first, second] ((empty {}).offered [first, second]) := one.next rfl
  have known : knownLine? ((empty {}).offered [first, second]) = some (.ofCount 2) := by
    decide +kernel
  refine ⟨by decide, taken, other.next rfl, known, by decide +kernel, ?_⟩
  obtain ⟨profile, held, line⟩ : ∃ profile,
      ((empty {}).offered [first, second]).catalogue.graph.profile? (.callable ⟨["f"]⟩ "()") =
        some profile ∧ profile.attributes[AttributeName.line]? = some (.ofCount 2) :=
    Option.bind_eq_some_iff.mp known
  have sound := taken.history.holds.housed.sound
  obtain ⟨id, node, found, key, rfl⟩ := sound.profile?_eq_some.mp held
  have listed : node ∈ ((empty {}).offered [first, second]).catalogue.graph.nodes :=
    sound.mem_nodes.mpr (by rwa [sound.node_id found])
  refine ⟨node, listed, by rw [key]; decide, ?_⟩
  rw [key]
  have ranks : ∀ mention ∈ mentionsUnder (.callable ⟨["f"]⟩ "()") (allMentions [first, second]),
      mention.rank = ((functionIn 1).mention first.path.display [functionIn 1]).rank := by
    decide +kernel
  refine ⟨(functionIn 1).mention first.path.display [functionIn 1],
    ⟨⟨first, List.mem_cons_self, [], [], rfl, by simp⟩, fun mention member => ?_⟩,
    fun described => ?_⟩
  · rw [ranks mention member]
    exact Rank.not_outranks_self _
  · have first : node.attributes[AttributeName.line]? = some (.ofCount 1) :=
      described.attributes (by decide) (by decide) (by decide +kernel)
    rw [show node.attributes[AttributeName.line]? = some (.ofCount 2) from line] at first
    revert first
    decide

end Assembly

end DeclGraph
