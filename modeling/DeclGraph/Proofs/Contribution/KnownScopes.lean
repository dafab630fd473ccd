import DeclGraph.Proofs.Contribution.Mentions
import Mathlib.Tactic.Tauto

/-!
# What a unit knows of its scopes

A unit says of a scope more than that there is one when it declares the scope or when it knows
what kind of scope encloses a declaration. It mentions a scope around its declarations only once,
as the first declaration in it knows it. What a later declaration knows better gets lost, so the
order of the declarations decides what is left of a scope that the unit does not declare and of
which it knows the kind at some places only.
-/

namespace DeclGraph

/-- A scope is mentioned as implied exactly when nothing is known about its kind. -/
@[simp] theorem Mention.ofScope_implied (name : ScopedName) (kind : ScopeKind) :
    (ofScope name kind).implied = false ↔ kind ≠ .unknown := by
  cases kind <;> simp [ofScope, impliedScope]

namespace Declaration

/-- No scope encloses a declaration twice, so that its kind there is the first one. -/
theorem lookup_enclosing {declaration : Declaration} {name : ScopedName} {kind : ScopeKind} :
    declaration.enclosing.lookup name = some kind ↔ (name, kind) ∈ declaration.enclosing := by
  have below : ∀ (steps : List ScopeStep) (outer : ScopedName),
      (enclosing.go outer steps).lookup name = some kind ↔
        (name, kind) ∈ enclosing.go outer steps := by
    intro steps
    induction steps with
    | nil => simp [enclosing.go]
    | cons step rest further =>
      intro outer
      unfold enclosing.go
      by_cases itself : name = outer.child step.name
      · have notBelow : (name, kind) ∉ enclosing.go (outer.child step.name) rest := by
          intro inner
          have longer := length_lt_of_mem_go inner
          rw [itself] at longer
          exact absurd longer (Nat.lt_irrefl _)
        rw [itself] at notBelow ⊢
        simp [notBelow, eq_comm]
      · simp [List.lookup_cons, beq_eq_false_iff_ne.mpr itself, itself, further]
  exact below declaration.scope .global

end Declaration

/-- Whether one of the mentions says of the scope more than that there is one. -/
def Establishes (mentions : List Mention) (name : ScopedName) : Prop :=
  ∃ mention ∈ mentions, mention.key = .scope name ∧ mention.implied = false

instance (mentions : List Mention) (name : ScopedName) : Decidable (Establishes mentions name) :=
  inferInstanceAs (Decidable (∃ mention ∈ mentions, _))

/-- More mentions establish what one part of them does. -/
theorem establishes_append {first second : List Mention} {name : ScopedName} :
    Establishes (first ++ second) name ↔ Establishes first name ∨ Establishes second name := by
  simp only [Establishes, List.mem_append, or_and_right, exists_or]

/-- A mention in front establishes its scope, unless it is implied. -/
theorem establishes_cons {mention : Mention} {rest : List Mention} {name : ScopedName} :
    Establishes (mention :: rest) name ↔
      (mention.key = .scope name ∧ mention.implied = false) ∨ Establishes rest name := by
  simp [Establishes]

/-- Whether a scope is named, and not just as a qualifier. -/
def IsKnown (kind : Option ScopeKind) : Prop :=
  ∃ known, kind = some known ∧ known ≠ .unknown

namespace SourceUnit

variable {name : ScopedName} {mentioned : List ScopedName}

/-- The scopes around the declarations, as each declaration knows them. -/
def namingsOf (declarations : List Declaration) : List (ScopedName × ScopeKind) :=
  declarations.flatMap (·.enclosing)

/-- The first naming of a scope is that by the first declaration that names it. -/
theorem lookup_namingsOf_cons (declaration : Declaration) (rest : List Declaration) :
    (namingsOf (declaration :: rest)).lookup name =
      (declaration.enclosing.lookup name).or ((namingsOf rest).lookup name) := by
  rw [namingsOf, List.flatMap_cons, List.lookup_append]
  rfl

/-- New scopes are those around the declaration that have not been mentioned, with the kind that the
declaration names first. -/
theorem mem_newScopes {declaration : Declaration} {kind : ScopeKind} :
    (name, kind) ∈ newScopes mentioned declaration ↔
      name ∉ mentioned ∧ declaration.enclosing.lookup name = some kind := by
  simp [newScopes, Declaration.lookup_enclosing, and_comm]

/-- The new scopes around a declaration are established by what it knows of them. -/
theorem establishes_newScopes {declaration : Declaration} :
    Establishes ((newScopes mentioned declaration).map fun scope => .ofScope scope.1 scope.2) name ↔
      name ∉ mentioned ∧ IsKnown (declaration.enclosing.lookup name) := by
  constructor
  · rintro ⟨mention, listed, key, known⟩
    obtain ⟨⟨outer, kind⟩, isNew, rfl⟩ := List.mem_map.mp listed
    obtain rfl : outer = name := by
      have same := (ofScope_key outer kind).symm.trans key
      simpa [EntityKey.scope] using same
    obtain ⟨fresh, found⟩ := mem_newScopes.mp isNew
    exact ⟨fresh, kind, found, (Mention.ofScope_implied outer kind).mp known⟩
  · rintro ⟨fresh, kind, found, known⟩
    exact ⟨.ofScope name kind, List.mem_map.mpr ⟨_, mem_newScopes.mpr ⟨fresh, found⟩, rfl⟩,
      ofScope_key name kind, (Mention.ofScope_implied name kind).mpr known⟩

/-- Which scopes are mentioned once a declaration is. -/
theorem mem_mentioned_after {declaration : Declaration} :
    name ∈ mentioned ++ (newScopes mentioned declaration).map (·.1) ++ ownScope declaration ↔
      name ∈ mentioned ∨ (declaration.enclosing.lookup name).isSome ∨
        declaration.DeclaresScope name := by
  have scopes : name ∈ (newScopes mentioned declaration).map (·.1) ↔
      name ∉ mentioned ∧ (declaration.enclosing.lookup name).isSome := by
    rw [Option.isSome_iff_exists, ← exists_and_left]
    simp [← mem_newScopes]
  rw [List.mem_append, List.mem_append, mem_ownScope, scopes]
  tauto

/-- A list of declarations establishes the scopes that it declares, and those that were not
mentioned before and that the first declaration in them knows. -/
theorem establishes_mentionsFrom {file : String} {siblings declarations : List Declaration} :
    Establishes (mentionsFrom file siblings mentioned declarations) name ↔
      (∃ declaration ∈ declarations, declaration.DeclaresScope name) ∨
        name ∉ mentioned ∧ IsKnown ((namingsOf declarations).lookup name) := by
  induction declarations generalizing mentioned with
  | nil => simp [mentionsFrom, Establishes, namingsOf, IsKnown]
  | cons declaration rest further =>
    have itself : ((declaration.mention file siblings).key = .scope name ∧
        (declaration.mention file siblings).implied = false) ↔ declaration.DeclaresScope name :=
      (and_iff_left rfl).trans Declaration.key_eq_scope
    unfold mentionsFrom
    rw [establishes_append, establishes_cons, establishes_newScopes, itself, further,
      mem_mentioned_after, lookup_namingsOf_cons]
    simp only [List.mem_cons, exists_eq_or_imp]
    by_cases own : declaration.DeclaresScope name
    · simp [own]
    · -- What the first declaration knows of the scope decides, if it lies in the scope at all.
      cases around : declaration.enclosing.lookup name with
      | none => simp [own, IsKnown]
      | some kind => simp [own, or_comm]

/-- The scopes around the declarations of a unit, as each declaration knows them. -/
def namings (unit : SourceUnit) : List (ScopedName × ScopeKind) :=
  namingsOf unit.declarations

/-- Whether a unit declares a scope. -/
def Declares (unit : SourceUnit) (name : ScopedName) : Prop :=
  ∃ declaration ∈ unit.declarations, declaration.DeclaresScope name

/-- Whether a declaration of a unit knows what kind of scope it lies in. -/
def Knows (unit : SourceUnit) (name : ScopedName) : Prop :=
  ∃ kind, (name, kind) ∈ unit.namings ∧ kind ≠ .unknown

/-- The unit with its declarations in another order. -/
def reordered (unit : SourceUnit) (declarations : List Declaration) : SourceUnit :=
  { unit with declarations }

/-- A unit establishes the scopes that it declares and those of which the first naming tells the
kind. -/
theorem establishes_mentions {unit : SourceUnit} :
    Establishes unit.mentions name ↔ unit.Declares name ∨ IsKnown (unit.namings.lookup name) := by
  rw [mentions, establishes_mentionsFrom]
  simp [Declares, namings]

/-- The first naming is among the namings. -/
theorem mem_namings_of_lookup {unit : SourceUnit} {kind : ScopeKind}
    (first : unit.namings.lookup name = some kind) : (name, kind) ∈ unit.namings := by
  obtain ⟨before, after, split, _⟩ := List.lookup_eq_some_iff.mp first
  rw [split]
  simp

/-- A unit whose first naming of a scope tells its kind knows the scope. -/
theorem knows_of_isKnown {unit : SourceUnit} (first : IsKnown (unit.namings.lookup name)) :
    unit.Knows name := by
  obtain ⟨kind, found, known⟩ := first
  exact ⟨kind, mem_namings_of_lookup found, known⟩

/-- A scope that never just qualifies a name is known where it is named first. -/
theorem isKnown_of_knows {unit : SourceUnit} (knows : unit.Knows name)
    (neverQualifier : (name, .unknown) ∉ unit.namings) : IsKnown (unit.namings.lookup name) := by
  obtain ⟨someKind, named, _⟩ := knows
  obtain ⟨kind, first⟩ : ∃ kind, unit.namings.lookup name = some kind := by
    rw [← Option.isSome_iff_exists, List.lookup_isSome_iff]
    exact ⟨_, named, by simp⟩
  refine ⟨kind, first, ?_⟩
  rintro rfl
  exact neverQualifier (mem_namings_of_lookup first)

/-- Where it does not matter which declaration is the first in a scope, whatever the unit knows
of the scope counts. -/
theorem establishes_of_agree {unit : SourceUnit}
    (agree : unit.Knows name → (name, .unknown) ∈ unit.namings → unit.Declares name) :
    Establishes unit.mentions name ↔ unit.Declares name ∨ unit.Knows name := by
  rw [establishes_mentions]
  constructor
  · exact Or.imp_right knows_of_isKnown
  · rintro (declared | knows)
    · exact .inl declared
    · by_cases qualifier : (name, .unknown) ∈ unit.namings
      · exact .inl (agree knows qualifier)
      · exact .inr (isKnown_of_knows knows qualifier)

section Order

variable {unit : SourceUnit} {declarations : List Declaration}

/-- Declarations in another order name the same. -/
theorem mem_namings_reordered (order : declarations.Perm unit.declarations)
    {naming : ScopedName × ScopeKind} :
    naming ∈ (unit.reordered declarations).namings ↔ naming ∈ unit.namings := by
  simp only [namings, namingsOf, reordered, List.mem_flatMap, order.mem_iff]

/-- Declarations in another order make the same known. -/
theorem knows_reordered (order : declarations.Perm unit.declarations) :
    (unit.reordered declarations).Knows name ↔ unit.Knows name := by
  simp only [Knows, mem_namings_reordered order]

/-- Declarations in another order declare the same. -/
theorem declares_reordered (order : declarations.Perm unit.declarations) :
    (unit.reordered declarations).Declares name ↔ unit.Declares name := by
  simp only [Declares, reordered, order.mem_iff]

/-- What a unit knows of a scope at some place can be made what it knows of it first. -/
theorem exists_order_lookup {kind : ScopeKind} (named : (name, kind) ∈ unit.namings) :
    ∃ declarations : List Declaration, declarations.Perm unit.declarations ∧
      (unit.reordered declarations).namings.lookup name = some kind := by
  obtain ⟨declaration, declared, around⟩ := List.mem_flatMap.mp named
  obtain ⟨before, after, split⟩ := List.append_of_mem declared
  refine ⟨declaration :: (before ++ after), ?_, ?_⟩
  · rw [split]
    exact List.perm_middle.symm
  · rw [namings, reordered, lookup_namingsOf_cons, Declaration.lookup_enclosing.mpr around]
    rfl

end Order

/-- A unit establishes a scope if and only if it declares the scope or the first declaration in
the scope knows its kind. That any declaration knows the kind is enough in every order of the
declarations if and only if the unit declares the scope, or all declarations in the scope know its
kind, or none does. -/
theorem establishes_iff (settings : Settings) (unit : SourceUnit) (name : ScopedName) :
    (Establishes (unit.contribution settings).mentions name ↔
      unit.Declares name ∨ IsKnown (unit.namings.lookup name)) ∧
    ((∀ declarations : List Declaration, declarations.Perm unit.declarations →
        (Establishes ((unit.reordered declarations).contribution settings).mentions name ↔
          unit.Declares name ∨ unit.Knows name)) ↔
      (unit.Knows name → (name, .unknown) ∈ unit.namings → unit.Declares name)) := by
  refine ⟨establishes_mentions, ?_, ?_⟩
  · intro anyOrder knows qualifier
    -- Put first, the declaration that names the scope as a qualifier hides what the others know.
    obtain ⟨declarations, order, first⟩ := exists_order_lookup qualifier
    have established := (anyOrder declarations order).mpr (.inr knows)
    rw [contribution_mentions, establishes_mentions, declares_reordered order, first]
      at established
    refine established.resolve_right ?_
    rintro ⟨kind, same, known⟩
    cases same
    exact known rfl
  · intro agree declarations order
    rw [← declares_reordered order, ← knows_reordered order] at agree ⊢
    rw [← mem_namings_reordered order] at agree
    exact establishes_of_agree agree

/-- A member of a record whose kind is known or not where the member stands. -/
def memberOfCircle (name : String) (known : ScopeKind) (line : Nat) : Declaration :=
  { kind := .method, name, scope := [⟨"Circle", known⟩], line }

/-- A unit with a member that only a qualifier ties to its record, and then another one that is
known to lie in a class. -/
def qualifierFirst : SourceUnit :=
  ⟨.ofText "shapes.cpp", [memberOfCircle "area" .unknown 2, memberOfCircle "draw" .classRecord 4],
    [], .zero, 5, 60⟩

/-- That the second member lies in a class is lost, since the first one had the scope mentioned
already. In the other order of the members it is not lost. -/
theorem unestablished_by_earlier_qualifier :
    ¬ (Establishes (qualifierFirst.contribution {}).mentions ⟨["Circle"]⟩ ↔
        qualifierFirst.Declares ⟨["Circle"]⟩ ∨ qualifierFirst.Knows ⟨["Circle"]⟩) ∧
      Establishes ((qualifierFirst.reordered qualifierFirst.declarations.reverse).contribution
        {}).mentions ⟨["Circle"]⟩ := by
  have lost : ¬ Establishes (qualifierFirst.contribution {}).mentions ⟨["Circle"]⟩ := by decide
  have named : (⟨["Circle"]⟩, .classRecord) ∈ qualifierFirst.namings := by decide
  refine ⟨fun law => lost (law.mpr (.inr ⟨.classRecord, named, ?_⟩)), ?_⟩
  · decide
  · decide

end SourceUnit

end DeclGraph
