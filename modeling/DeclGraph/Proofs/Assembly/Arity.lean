import DeclGraph.Proofs.Assembly.Finish
import DeclGraph.Proofs.Assembly.Gathering
import Mathlib.Algebra.Group.Nat.Defs

/-!
# How many arguments a callable takes

A callable is declared by several declarations, and default arguments may stand on some of
them only. How many arguments the linking lets it take is told by the declaration that
speaks for it, except that an ellipsis on any of its declarations takes further ones.
-/

namespace DeclGraph

namespace Declaration

/-- The signature that a declaration is called by. One without a signature takes no
arguments. -/
def calledAs (declaration : Declaration) : Signature :=
  declaration.signature.getD ⟨[], none, false, false⟩

/-- The rank of a declaration in a unit. -/
def rankIn (declaration : Declaration) (unit : SourceUnit) : Rank :=
  ⟨declaration.isDefinition, some unit.path.display⟩

variable {file : String} {siblings : List Declaration} {declaration : Declaration}

/-- The mention of a declaration ranks by whether it is a definition and by the file of its unit. -/
theorem rank_mention (unit : SourceUnit) (siblings : List Declaration) :
    (declaration.mention unit.path.display siblings).rank = declaration.rankIn unit := by
  rw [Mention.rank, Attributes.text?_eq_some.mpr mention_sourceFile]
  rfl

/-- Of a callable no more is noted than its modifiers and its signature. -/
theorem kindEntries_of_callable (callable : declaration.kind.family = .callable) :
    declaration.kindEntries siblings =
      modifierEntries declaration.modifiers ++ signatureEntries declaration.signature := by
  unfold kindEntries
  revert callable
  cases declaration.kind <;> simp [EntityKind.family]

/-- What a signature notes stands in the mention of the callable. -/
theorem mention_of_signatureEntries (callable : declaration.kind.family = .callable)
    {key : String} {value : Value} (member : (key, value) ∈ signatureEntries declaration.signature) :
    (declaration.mention file siblings).attributes[key]? = some value := by
  refine mention_attributes.mpr (.inr ?_)
  rw [kindEntries_of_callable callable]
  exact List.mem_append_right _ member

/-- A callable is mentioned with the number of arguments that it needs. -/
theorem mention_minArity (callable : declaration.kind.family = .callable) :
    (declaration.mention file siblings).attributes[AttributeName.minArity]? =
      some (.ofCount declaration.calledAs.minArity) := by
  refine mention_of_signatureEntries callable ?_
  unfold calledAs signatureEntries
  cases declaration.signature <;> simp [Signature.minArity]

/-- A callable is mentioned with the types of its parameters. -/
theorem mention_parameterTypes (callable : declaration.kind.family = .callable) :
    (declaration.mention file siblings).attributes[AttributeName.parameterTypes]? =
      some (.texts declaration.calledAs.parameterTypes) := by
  refine mention_of_signatureEntries callable ?_
  unfold calledAs signatureEntries
  cases declaration.signature <;> simp [Signature.parameterTypes]

/-- A signature notes an ellipsis exactly when it has one. -/
theorem isVariadic_mem_signatureEntries :
    (AttributeName.isVariadic, Value.flag true) ∈ signatureEntries declaration.signature ↔
      declaration.calledAs.isVariadic = true := by
  have other : AttributeName.isVariadic ≠ AttributeName.isConst := by decide
  unfold calledAs signatureEntries
  cases declaration.signature with
  | none => simp [Value.ofCount]
  | some signature =>
    cases signature.isVariadic <;> cases signature.isConst <;> cases signature.returnType <;>
      simp [flagEntry, optionalEntry, Value.ofCount, other]

/-- A callable is mentioned as variadic exactly when its signature has an ellipsis. -/
theorem mention_isVariadic (callable : declaration.kind.family = .callable) :
    (declaration.mention file siblings).attributes.isSet AttributeName.isVariadic = true ↔
      declaration.calledAs.isVariadic = true := by
  rw [Attributes.isSet_iff, ← isVariadic_mem_signatureEntries]
  constructor
  · intro held
    rw [mention_attributes, kindEntries_of_callable callable, List.mem_append] at held
    rcases held with place | modifier | entry
    · have notPlace : AttributeName.isVariadic ∉ placeKeys := by decide
      exact absurd ((placeEntries_keys file declaration).subset (List.mem_map_of_mem place))
        notPlace
    · have notModifier : AttributeName.isVariadic ∉
          [AttributeName.isVirtual, AttributeName.isOverride, AttributeName.isPure,
            AttributeName.isStatic, AttributeName.isDefaulted, AttributeName.isDeleted] := by decide
      exact absurd ((modifierEntries_keys declaration.modifiers).subset
        (List.mem_map_of_mem modifier)) notModifier
    · exact entry
  · exact mention_of_signatureEntries callable

end Declaration

/-- A number of arguments fits the best of the declarations that a callable is merged from.
An ellipsis on any of them takes further ones. -/
def Admits (units : List SourceUnit) (moves : List Move) (key : EntityKey) (best : Declaration)
    (count : Nat) : Prop :=
  best.calledAs.minArity % 2 ^ 64 ≤ count ∧
    (count ≤ best.calledAs.parameters.length ∨
      ∃ unit declaration, MergedInto units moves key unit declaration ∧
        declaration.calledAs.isVariadic)

/-- Where all declarations have an ellipsis or none has, what fits is what the signature of
the best one accepts. -/
theorem admits_iff_accepts {units : List SourceUnit} {moves : List Move} {key : EntityKey}
    {unit : SourceUnit} {best : Declaration} (merged : MergedInto units moves key unit best)
    (alike : ∀ otherUnit other, MergedInto units moves key otherUnit other →
      other.calledAs.isVariadic = best.calledAs.isVariadic)
    (fewest : best.calledAs.minArity < 2 ^ 64) (count : Nat) :
    Admits units moves key best count ↔ best.calledAs.accepts count = true := by
  have ellipsis : (∃ otherUnit other, MergedInto units moves key otherUnit other ∧
      other.calledAs.isVariadic = true) ↔ best.calledAs.isVariadic = true := by
    constructor
    · rintro ⟨otherUnit, other, mergedToo, isVariadic⟩
      rw [← alike otherUnit other mergedToo, isVariadic]
    · exact fun isVariadic => ⟨unit, best, merged, isVariadic⟩
  unfold Admits Signature.accepts Signature.maxArity?
  rw [Nat.mod_eq_of_lt fewest, ellipsis]
  cases best.calledAs.isVariadic <;> simp

namespace Catalogue

/-- A declaration in a unit tells how many arguments a callable takes that it was merged
into. -/
structure CallToldBy (catalogue : Catalogue) (units : List SourceUnit) (moves : List Move)
    (node : Node) (unit : SourceUnit) (best : Declaration) : Prop where
  merged : MergedInto units moves node.key unit best
  top : ∀ otherUnit other, MergedInto units moves node.key otherUnit other →
    ¬ (other.rankIn otherUnit).Outranks (best.rankIn unit)
  takes_iff : ∀ count, catalogue.takes count node.id = true ↔
    Admits units moves node.key best count
  accepts_iff : (∀ otherUnit other, MergedInto units moves node.key otherUnit other →
      other.calledAs.isVariadic = best.calledAs.isVariadic) → best.calledAs.minArity < 2 ^ 64 →
    ∀ count, catalogue.takes count node.id = true ↔ best.calledAs.accepts count = true
  left_out_iff : ∀ count candidates, node.id ∈ candidates →
    (node.id ∉ catalogue.narrowed count candidates ↔
      ¬ Admits units moves node.key best count ∧
        ∃ other ∈ candidates, catalogue.takes count other = true)

variable {catalogue : Catalogue} {units : List SourceUnit} {moves : List Move}

/-- Once kinds are settled, a declaration that is merged into a callable still speaks for
it. -/
theorem Gathers.exists_speaker {middle after : Catalogue} (gathers : catalogue.Gathers units moves)
    (housed : catalogue.Housed []) (scopes : catalogue.Rekinded middle catalogue.scopeKind)
    (functions : middle.Rekinded after middle.functionKind) {id : Nat} {node : Node}
    (found : after.graph.nodeTable[id]? = some node) (callable : node.key.family = .callable) :
    ∃ (unit : SourceUnit) (best : Declaration) (profile : Profile),
      MergedInto units moves node.key unit best ∧
      profile.attributes = node.attributes ∧
      profile.SpokenFor (MentionedIn units moves node.key)
        (best.mention unit.path.display unit.declarations) := by
  obtain ⟨settled, settledFound, became⟩ := functions.exists_former found
  obtain ⟨former, formerFound, wasBefore⟩ := scopes.exists_former settledFound
  have key : former.key = node.key := by rw [became, wasBefore]
  have attributes : former.attributes = node.attributes := by rw [became, wasBefore]
  obtain ⟨_, spoken⟩ := gathers.spokenFor callable
    (key ▸ housed.sound.profile?_of_node formerFound)
  obtain ⟨unit, best, merged, rfl⟩ := spoken.best_mem
  exact ⟨unit, best, _, merged, attributes, spoken⟩

/-- How many arguments a callable takes is told by the declaration that speaks for it and by
every ellipsis. -/
theorem takes_iff_of_spokenFor {node : Node} (found : catalogue.graph.nodeTable[node.id]? = some node)
    (isCallable : node.kind.isCallable) (callable : node.key.family = .callable)
    {unit : SourceUnit} {best : Declaration} (merged : MergedInto units moves node.key unit best)
    {profile : Profile} (same : profile.attributes = node.attributes)
    (spoken : profile.SpokenFor (MentionedIn units moves node.key)
      (best.mention unit.path.display unit.declarations)) (count : Nat) :
    catalogue.takes count node.id = true ↔ Admits units moves node.key best count := by
  have ofBest := merged.kind_family callable
  have fewest : node.attributes[AttributeName.minArity]? =
      some (.ofCount best.calledAs.minArity) := by
    rw [← same]
    exact spoken.said (by constructor <;> decide) (Declaration.mention_minArity ofBest)
  have most : node.attributes[AttributeName.parameterTypes]? =
      some (.texts best.calledAs.parameterTypes) := by
    rw [← same]
    exact spoken.said (by constructor <;> decide) (Declaration.mention_parameterTypes ofBest)
  have variadic : node.attributes.isSet AttributeName.isVariadic = true ↔
      ∃ unit declaration, MergedInto units moves node.key unit declaration ∧
        declaration.calledAs.isVariadic := by
    rw [← same]
    refine (spoken.isSet_iff (by constructor <;> decide)).trans ?_
    constructor
    · rintro ⟨_, ⟨unit, declaration, mergedToo, rfl⟩, isSet⟩
      exact ⟨unit, declaration, mergedToo, (Declaration.mention_isVariadic
        (mergedToo.kind_family callable)).mp isSet⟩
    · rintro ⟨unit, declaration, mergedToo, ellipsis⟩
      exact ⟨_, ⟨unit, declaration, mergedToo, rfl⟩, (Declaration.mention_isVariadic
        (mergedToo.kind_family callable)).mpr ellipsis⟩
  have word : (((Value.ofCount best.calledAs.minArity).int?).getD 0).toUInt64.toNat =
      best.calledAs.minArity % 2 ^ 64 := UInt64.toNat_ofNat
  have length : (((Value.texts best.calledAs.parameterTypes).texts?).getD []).length =
      best.calledAs.parameters.length := List.length_map _
  unfold takes Admits
  simp only [found, isCallable, Attributes.int?, Attributes.texts?, fewest, most, Option.bind_some,
    word, length, Bool.true_and, Bool.and_eq_true, Bool.or_eq_true, decide_eq_true_eq, variadic]
  exact and_congr_right fun _ => or_comm

/-- A node that is spoken for by the mention of a declaration is called as the declaration tells. -/
theorem callToldBy_of_spokenFor {node : Node}
    (found : catalogue.graph.nodeTable[node.id]? = some node) (isCallable : node.kind.isCallable)
    (callable : node.key.family = .callable) {unit : SourceUnit} {best : Declaration}
    (merged : MergedInto units moves node.key unit best) {profile : Profile}
    (same : profile.attributes = node.attributes)
    (spoken : profile.SpokenFor (MentionedIn units moves node.key)
      (best.mention unit.path.display unit.declarations)) :
    catalogue.CallToldBy units moves node unit best where
  merged := merged
  top otherUnit other mergedToo := by
    have top := spoken.top _ ⟨otherUnit, other, mergedToo, rfl⟩
    rwa [Declaration.rank_mention, Declaration.rank_mention] at top
  takes_iff := takes_iff_of_spokenFor found isCallable callable merged same spoken
  accepts_iff alike fewest count :=
    (takes_iff_of_spokenFor found isCallable callable merged same spoken count).trans
      (admits_iff_accepts merged alike fewest count)
  left_out_iff count candidates member := by
    rw [mem_narrowed, takes_iff_of_spokenFor found isCallable callable merged same spoken]
    simp [member]

end Catalogue

namespace Assembly

/-- Whatever units were offered, every callable that is linked is merged from declarations of
those that were taken up, and one of them that none outranks tells how many arguments the
callable takes, but for ellipses. Of several candidates a callable is left out only if that
declaration does not fit and another candidate does. -/
theorem offered_takes_iff (settings : Settings) (units : List SourceUnit) :
    let assembly := (empty settings).offered units
    let accepted := (empty settings).accepted units
    ∃ moves relocated settled prepared linking,
      assembly.catalogue.Relocated moves relocated ∧
      relocated.Rekinded settled relocated.scopeKind ∧
      settled.Rekinded prepared settled.functionKind ∧
      assembly.Finishes prepared linking ∧
      Linking.Grows Linking.allBonds ⟨prepared, []⟩ linking ∧
      ∀ stage : Linking, Linking.Grows Linking.allBonds ⟨prepared, []⟩ stage →
        ∀ node ∈ stage.catalogue.graph.nodes, node.kind.isCallable →
          ∃ unit best, stage.catalogue.CallToldBy accepted moves node unit best := by
  intro assembly accepted
  have holds := (takenUp_accepted settings units).history.holds
  obtain ⟨prepared, linking, finishes, housed, unlinked, complete⟩ :=
    finish_links holds.housed holds.unlinked
  obtain ⟨relocated, settled, _, _, ⟨moves, moved⟩, scopes, functions⟩ :=
    (succeeds_prepare_settling (fun middle => ∃ moves, assembly.catalogue.Relocated moves middle)
      (fun housed placed sofar => sofar.elim fun _ moved =>
        ⟨_, moved.makes (Catalogue.makes_of_movedTo housed.sound placed)⟩) holds.housed
      holds.unlinked ⟨[], .refl⟩).of_run finishes.prepares
  refine ⟨moves, relocated, settled, prepared, linking, moved, scopes, functions, finishes,
    complete.grows, ?_⟩
  intro stage grows node listed isCallable
  obtain ⟨gathers, housedMoved⟩ := moved.gathers holds.housed holds.gathers
  have sound := (grows.housed housed).sound
  have found := sound.mem_nodes.mp listed
  have callable : node.key.family = .callable := by
    rw [← sound.kind_family found]
    simpa [EntityKind.isCallable] using isCallable
  have declared : node.kind ≠ .placeholder := by
    intro kind
    simp [kind, EntityKind.isCallable, EntityKind.family] at isCallable
  obtain ⟨unit, best, profile, merged, attributes, spoken⟩ :=
    gathers.exists_speaker housedMoved scopes functions (grows.nodes_declared found declared)
      callable
  exact ⟨unit, best, Catalogue.callToldBy_of_spokenFor found isCallable callable merged attributes
    spoken⟩

/-- A declaration of a function `f` without a result. -/
def overload (parameters : List Parameter) (isDefinition : Bool) (line : Nat) : Declaration where
  kind := .freeFunction
  name := "f"
  signature := some ⟨parameters, some "void", false, false⟩
  isDefinition
  line

/-- The declaration of an overload with a default argument, as it stands in a header. -/
def prototype : Declaration := overload [⟨none, "int", false⟩, ⟨none, "int", true⟩] false 1

/-- A header with two overloads, the definition of the one without its default argument, and
a function that calls with one argument. -/
def overloadUnits : List SourceUnit :=
  let unit (path : String) (declarations : List Declaration) : SourceUnit :=
    ⟨.ofText path, declarations, [], .zero, 10, 100⟩
  [unit "f.h" [prototype, overload [⟨none, "double", false⟩] false 2],
   unit "f.cpp" [overload [⟨none, "int", false⟩, ⟨none, "int", false⟩] true 3],
   unit "g.cpp"
    [{ kind := .freeFunction, name := "g", signature := some ⟨[], some "void", false, false⟩
       isDefinition := true, line := 4
       body := some { calls := [{ callee := "f", style := .plain, receiver := .absent,
                                  argumentCount := 1, line := 4 }], locals := [] } }]]

/-- The keys of what a callable calls in the graph finished from units in their order. -/
def finishedCallees? (units : List SourceUnit) (key : EntityKey) : Option (List EntityKey) := do
  let finished ← ((empty {}).offered units).finish.toOption
  let id ← finished.graph.nodeByKey? key
  let called := (finished.graph.outgoing id (some .calls)).filterMap fun edge =>
    finished.graph.nodeTable[edge.target]?
  return called.map (·.key)

/-- Whether a callable takes a number of arguments in the graph finished from units in their
order. -/
def finishedTakes? (units : List SourceUnit) (key : EntityKey) (count : Nat) : Option Bool := do
  let finished ← ((empty {}).offered units).finish.toOption
  let id ← finished.graph.nodeByKey? key
  return { Catalogue.empty with graph := finished.graph }.takes count id

/-- A default argument of a prototype is lost with the definition, and the overload is not
called. -/
theorem finishedTakes?_prototype :
    (empty {}).accepted overloadUnits = overloadUnits ∧ prototype.calledAs.accepts 1 = true ∧
      finishedTakes? overloadUnits prototype.key 1 = some false ∧
      finishedCallees? overloadUnits (.callable ⟨["g"]⟩ "()") =
        some [.callable ⟨["f"]⟩ "(double)"] := by
  refine ⟨?_, ?_, ?_, ?_⟩ <;> decide +kernel

end Assembly

end DeclGraph
