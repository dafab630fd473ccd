import DeclGraph.Proofs.Catalogue.Housed
import DeclGraph.Proofs.Contribution.Entries

/-!
# Mentions of units

What a unit mentions is either a declaration, which carries the file of the unit,
or a scope around a declaration, which carries nothing. A scope is always
mentioned before anything in it.
-/

namespace DeclGraph

/-- What holds of every mention of a unit. `file` is the path of the unit as
written. -/
structure Mention.Regular (file : String) (mention : Mention) : Prop where
  family : mention.kind.family = mention.key.family
  named : mention.key.family ≠ .placeholder → mention.key.name.segments ≠ []
  source : mention.attributes[AttributeName.sourceFile]? = some (.text file) ∨
    ∀ key, key ≠ AttributeName.implied → mention.attributes[key]? = none
  isDefinition : mention.attributes.isSet AttributeName.isDefinition = mention.isDefinition
  implied : mention.attributes[AttributeName.implied]? =
    if mention.implied then some (.flag true) else none
  implied_scope : mention.implied = true → mention.kind = .namespaceScope
  implied_source : mention.implied = true →
    mention.attributes[AttributeName.sourceFile]? = none
  fits : ∀ {key : String} {value : Value}, mention.attributes[key]? = some value →
    EntryFits (key, value)

/-- No unit mentions the global namespace. -/
theorem Mention.Regular.not_global {mention : Mention} {file : String}
    (regular : mention.Regular file) : mention.key ≠ .global := by
  intro global
  refine regular.named ?_ ?_
  · rw [global]
    decide
  · rw [global]
    rfl

namespace Declaration

/-- The key of a declaration is of the family of its kind. -/
theorem key_family (declaration : Declaration) :
    declaration.key.family = declaration.kind.family := by
  unfold key
  cases declaration.kind.family <;> rfl

/-- Only the key of a stand-in has another name than its declaration. -/
theorem key_name (declaration : Declaration) (family : declaration.key.family ≠ .placeholder) :
    declaration.key.name = declaration.scopedName := by
  rw [key_family] at family
  unfold key
  cases known : declaration.kind.family
  case placeholder => exact absurd known family
  all_goals rfl

/-- Whether a namespace or a record of the name is declared. -/
def DeclaresScope (declaration : Declaration) (name : ScopedName) : Prop :=
  declaration.kind.family = .scope ∧ declaration.scopedName = name

/-- A declaration has the key of a scope exactly when it declares the scope. -/
theorem key_eq_scope {declaration : Declaration} {name : ScopedName} :
    declaration.key = .scope name ↔ declaration.DeclaresScope name := by
  constructor
  · intro same
    have family : declaration.key.family = .scope := by
      rw [same]
      rfl
    have named := declaration.key_name (by simp [family])
    rw [same] at named
    exact ⟨declaration.key_family.symm.trans family, named.symm⟩
  · rintro ⟨family, rfl⟩
    unfold key
    rw [family]

/-- A scope below another has the longer name. -/
theorem length_lt_of_mem_go {steps : List ScopeStep} {outer name : ScopedName} {kind : ScopeKind}
    (below : (name, kind) ∈ enclosing.go outer steps) : outer.length < name.length := by
  induction steps generalizing outer with
  | nil => exact absurd below List.not_mem_nil
  | cons step rest further =>
    have longer : outer.length < (outer.child step.name).length := by
      simp [ScopedName.length]
    obtain same | inner := List.mem_cons.mp below
    · cases same
      exact longer
    · exact Nat.lt_trans longer (further inner)

/-- The mention of a declaration is regular. -/
theorem regular_mention (file : String) (siblings : List Declaration) (declaration : Declaration) :
    (declaration.mention file siblings).Regular file where
  family := declaration.key_family.symm
  named family := by
    show declaration.key.name.segments ≠ []
    rw [declaration.key_name family]
    simp [scopedName]
  source := .inl mention_sourceFile
  isDefinition := mention_isDefinition
  implied := mention_implied
  implied_scope := fun implied => by cases implied
  implied_source := fun implied => by cases implied
  fits := mention_fits

end Declaration

/-- Every mention of a scope around a declaration is regular. -/
theorem Mention.regular_ofScope (file : String) {name : ScopedName} (someSegment : name.segments ≠ [])
    (kind : ScopeKind) : (Mention.ofScope name kind).Regular file := by
  have bare : ∀ record : EntityKind, record.family = .scope →
      (⟨.scope name, record, ∅, false, false⟩ : Mention).Regular file := by
    intro record family
    constructor
    case family => exact family
    case named => exact fun _ => someSegment
    case source => exact .inr fun key _ => Std.ExtTreeMap.getElem?_empty
    case isDefinition => rfl
    case implied => exact Std.ExtTreeMap.getElem?_empty
    case implied_scope | implied_source => exact fun implied => by cases implied
    case fits =>
      intro key value held
      rw [show (∅ : Attributes)[key]? = none from Std.ExtTreeMap.getElem?_empty] at held
      cases held
  cases kind with
  | namespaceScope | classRecord | structRecord => exact bare _ rfl
  | unknown =>
    have table : ∀ key, (impliedScope name).attributes[key]? =
        if AttributeName.implied = key then some (.flag true) else none := by
      intro key
      simp [impliedScope, Std.ExtTreeMap.getElem?_insert]
    constructor
    case family => rfl
    case named => exact fun _ => someSegment
    case source => exact .inr fun key other => by simp [ofScope, table, Ne.symm other]
    case isDefinition =>
      rw [Bool.eq_iff_iff, Attributes.isSet_iff, ofScope, table]
      have apart : AttributeName.implied ≠ AttributeName.isDefinition := by decide
      simp [apart, impliedScope]
    case implied => simp [ofScope, impliedScope]
    case implied_scope => exact fun _ => rfl
    case implied_source =>
      intro _
      have apart : AttributeName.implied ≠ AttributeName.sourceFile := by decide
      simp [ofScope, table, apart]
    case fits =>
      intro key value held
      rw [ofScope, table] at held
      by_cases itself : AttributeName.implied = key
      · rw [if_pos itself] at held
        cases held
        subst itself
        have isFlag : AttributeName.implied ∈ AttributeName.flags := by decide
        have notShared : AttributeName.implied ∉ AttributeName.shared := by decide
        exact ⟨by simpa using isFlag, fun shared => absurd shared notShared⟩
      · rw [if_neg itself] at held
        cases held

/-- Whether every scope around a name is among the mentions. -/
def AllAround (mentions : List Mention) (segments : List String) : Prop :=
  ∀ key : EntityKey, key.isScopeAround segments → ∃ mention ∈ mentions, mention.key = key

/-- What is around a name is still there when more is mentioned. -/
theorem AllAround.append {mentions : List Mention} {segments : List String}
    (around : AllAround mentions segments) (further : List Mention) :
    AllAround (mentions ++ further) segments := by
  intro key isAround
  obtain ⟨mention, member, same⟩ := around key isAround
  exact ⟨mention, List.mem_append_left _ member, same⟩

/-- Once a scope is mentioned too, everything around its members is. -/
theorem AllAround.child {mentions : List Mention} {scope : ScopedName} {segment : String}
    (around : AllAround mentions scope.segments)
    (mentioned : ∃ mention ∈ mentions, mention.key = .scope (scope.child segment)) :
    AllAround mentions (scope.child segment).segments := by
  intro key isAround
  obtain rfl | outer := EntityKey.isScopeAround_concat.mp isAround
  · exact mentioned
  · exact around key outer

/-- Whether the scopes around each mention are mentioned before it. `earlier`
holds the mentions in front of the list. -/
def Grounded (earlier : List Mention) : List Mention → Prop
  | [] => True
  | mention :: rest =>
    (mention.key.family ≠ .placeholder →
      AllAround earlier mention.key.name.segments.dropLast) ∧ Grounded (earlier ++ [mention]) rest

/-- Mentions are grounded when the first part is, and the second is on the first. -/
theorem grounded_append {earlier first second : List Mention} :
    Grounded earlier (first ++ second) ↔
      Grounded earlier first ∧ Grounded (earlier ++ first) second := by
  induction first generalizing earlier with
  | nil => simp [Grounded]
  | cons mention rest further =>
    simp only [List.cons_append, Grounded, further, List.append_assoc, List.nil_append, and_assoc]

namespace SourceUnit

/-- The mentions of a unit, in order. -/
def mentions (unit : SourceUnit) : List Mention :=
  mentionsFrom unit.path.display unit.declarations [] unit.declarations

/-- A contribution holds what its unit mentions, whatever the settings. -/
@[simp] theorem contribution_mentions (settings : Settings) (unit : SourceUnit) :
    (unit.contribution settings).mentions = unit.mentions := rfl

/-- The scopes around a declaration have names. -/
theorem segments_of_mem_enclosing {declaration : Declaration} {scope : ScopedName × ScopeKind}
    (member : scope ∈ declaration.enclosing) : scope.1.segments ≠ [] := by
  have longer : ScopedName.global.length < scope.1.length := Declaration.length_lt_of_mem_go member
  exact List.ne_nil_of_length_pos longer

/-- What a unit mentions is one of its declarations, or a scope around one. -/
theorem mem_mentions_cases {unit : SourceUnit} {mention : Mention}
    (member : mention ∈ unit.mentions) :
    (∃ declaration ∈ unit.declarations,
      mention = declaration.mention unit.path.display unit.declarations) ∨
    ∃ (name : ScopedName) (kind : ScopeKind),
      name.segments ≠ [] ∧ mention = Mention.ofScope name kind := by
  have cases_ : ∀ (declarations : List Declaration) (mentioned : List ScopedName),
      mention ∈ mentionsFrom unit.path.display unit.declarations mentioned declarations →
        (∃ declaration ∈ declarations,
          mention = declaration.mention unit.path.display unit.declarations) ∨
        ∃ (name : ScopedName) (kind : ScopeKind),
          name.segments ≠ [] ∧ mention = Mention.ofScope name kind := by
    intro declarations
    induction declarations with
    | nil => exact fun _ member => absurd member List.not_mem_nil
    | cons declaration rest further =>
      intro mentioned member
      unfold mentionsFrom at member
      simp only [List.mem_append, List.mem_map, List.mem_cons] at member
      obtain ⟨scope, inScopes, rfl⟩ | rfl | inRest := member
      · have enclosing := (List.mem_filter.mp inScopes).1
        exact .inr ⟨scope.1, scope.2, segments_of_mem_enclosing enclosing, rfl⟩
      · exact .inl ⟨declaration, List.mem_cons_self, rfl⟩
      · refine (further _ inRest).imp_left ?_
        rintro ⟨other, otherMember, same⟩
        exact ⟨other, List.mem_cons_of_mem _ otherMember, same⟩
  exact cases_ unit.declarations [] member

/-- Every declaration of a unit is mentioned. -/
theorem mention_mem_mentions {unit : SourceUnit} {declaration : Declaration}
    (declared : declaration ∈ unit.declarations) :
    declaration.mention unit.path.display unit.declarations ∈ unit.mentions := by
  have listed : ∀ (declarations : List Declaration) (mentioned : List ScopedName),
      declaration ∈ declarations → declaration.mention unit.path.display unit.declarations ∈
        mentionsFrom unit.path.display unit.declarations mentioned declarations := by
    intro declarations
    induction declarations with
    | nil => exact fun _ member => absurd member List.not_mem_nil
    | cons other rest further =>
      intro mentioned member
      unfold mentionsFrom
      rcases List.mem_cons.mp member with rfl | inRest
      · simp
      · exact List.mem_append_right _ (List.mem_cons_of_mem _ (further _ inRest))
  exact listed unit.declarations [] declared

/-- Every mention of a unit is regular. -/
theorem regular_of_mem_mentions {unit : SourceUnit} {mention : Mention}
    (member : mention ∈ unit.mentions) : mention.Regular unit.path.display := by
  rcases mem_mentions_cases member with ⟨declaration, _, rfl⟩ | ⟨name, kind, someSegment, rfl⟩
  · exact declaration.regular_mention _ _
  · exact Mention.regular_ofScope _ someSegment kind

/-- A scope is mentioned under the key of a scope. -/
theorem ofScope_key (name : ScopedName) (kind : ScopeKind) :
    (Mention.ofScope name kind).key = .scope name := by
  cases kind <;> rfl

/-- The own scope of a declaration is the one that it declares. -/
theorem mem_ownScope {declaration : Declaration} {name : ScopedName} :
    name ∈ ownScope declaration ↔ declaration.DeclaresScope name := by
  unfold ownScope Declaration.DeclaresScope
  by_cases family : declaration.kind.family = .scope
  · have named := declaration.key_name (by simp [declaration.key_family, family])
    simp [family, named, eq_comm]
  · simp [family]

/-- The new scopes around a declaration are mentioned from the outside in, and
then all scopes around it are mentioned. -/
theorem grounded_scopes {mentioned : List ScopedName} (steps : List ScopeStep)
    (earlier : List Mention) (outer : ScopedName)
    (known : ∀ name ∈ mentioned, ∃ mention ∈ earlier, mention.key = .scope name)
    (around : AllAround earlier outer.segments) :
    let scopes := (Declaration.enclosing.go outer steps).filter fun scope =>
      !mentioned.contains scope.1
    let mentions := scopes.map fun scope => Mention.ofScope scope.1 scope.2
    Grounded earlier mentions ∧
      AllAround (earlier ++ mentions) (outer.segments ++ steps.map (·.name)) := by
  induction steps generalizing earlier outer with
  | nil =>
    refine ⟨trivial, ?_⟩
    simpa [Declaration.enclosing.go] using around
  | cons step rest further =>
    have segments : outer.segments ++ (step :: rest).map (·.name) =
        (outer.child step.name).segments ++ rest.map (·.name) := by simp
    unfold Declaration.enclosing.go
    rw [segments]
    by_cases old : outer.child step.name ∈ mentioned
    · rw [List.filter_cons_of_neg (by simp [old])]
      exact further _ _ known (around.child (known _ old))
    · rw [List.filter_cons_of_pos (by simpa using old)]
      have itself := ofScope_key (outer.child step.name) step.kind
      have there : ∃ mention ∈ earlier ++ [Mention.ofScope (outer.child step.name) step.kind],
          mention.key = .scope (outer.child step.name) := ⟨_, by simp, itself⟩
      have knownToo : ∀ name ∈ mentioned, ∃ mention ∈ earlier ++
          [Mention.ofScope (outer.child step.name) step.kind], mention.key = .scope name := by
        intro name member
        obtain ⟨mention, before, same⟩ := known name member
        exact ⟨mention, List.mem_append_left _ before, same⟩
      obtain ⟨grounded, all⟩ := further _ _ knownToo ((around.append _).child there)
      refine ⟨⟨fun _ => ?_, grounded⟩, ?_⟩
      · rw [itself]
        simpa [EntityKey.scope] using around
      · simpa using all

/-- Every unit mentions the scopes around a name before the name. -/
theorem grounded_mentions (unit : SourceUnit) : Grounded [] unit.mentions := by
  have grounded : ∀ (declarations : List Declaration) (mentioned : List ScopedName)
      (earlier : List Mention),
      (∀ name ∈ mentioned, ∃ mention ∈ earlier, mention.key = .scope name) →
      Grounded earlier
        (mentionsFrom unit.path.display unit.declarations mentioned declarations) := by
    intro declarations
    induction declarations with
    | nil => exact fun _ _ _ => trivial
    | cons declaration rest further =>
      intro mentioned earlier known
      obtain ⟨scopes, around⟩ := grounded_scopes declaration.scope earlier .global known
        (fun key isAround => by simp [ScopedName.global] at isAround)
      unfold mentionsFrom
      refine grounded_append.mpr ⟨scopes, ?_, ?_⟩
      · intro family
        have named := declaration.key_name family
        show AllAround _ declaration.key.name.segments.dropLast
        rw [named]
        simpa [Declaration.scopedName, Declaration.scopeName, ScopedName.global, newScopes,
          Declaration.enclosing] using around
      · refine further _ _ fun name member => ?_
        simp only [List.mem_append, List.mem_map] at member
        obtain (old | ⟨scope, inScopes, rfl⟩) | own := member
        · obtain ⟨mention, before, same⟩ := known name old
          exact ⟨mention, by simp [before], same⟩
        · refine ⟨.ofScope scope.1 scope.2, ?_, ofScope_key _ _⟩
          simp only [List.mem_append, List.mem_map]
          exact .inl (.inr ⟨scope, inScopes, rfl⟩)
        · refine ⟨declaration.mention unit.path.display unit.declarations, by simp, ?_⟩
          exact Declaration.key_eq_scope.mpr (mem_ownScope.mp own)
  exact grounded unit.declarations [] [] (by simp)

end SourceUnit

end DeclGraph
