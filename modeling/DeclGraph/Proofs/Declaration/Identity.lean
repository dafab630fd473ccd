import DeclGraph.Declaration.Basic
import DeclGraph.Proofs.Text.Brackets

/-!
# What the identity of a signature tells

The text that tells overloads apart lists the parameter types without saying where each of
them ends. It can be read back nevertheless: commas stand only inside the brackets of a type,
an ellipsis is no type, and what stands behind the list is told by the last character.
-/

namespace DeclGraph

/-- The spelling of a type in which every comma stands inside brackets. -/
structure IsListedType (type : String) : Prop where
  nonempty : type ≠ ""
  no_ellipsis : type ≠ "..."
  balanced : Text.Balanced type.toList
  commas_inside : Text.OnlyInside ',' type.toList

namespace IsListedType

variable {type : String}

instance : Decidable (IsListedType type) :=
  decidable_of_iff (type ≠ "" ∧ type ≠ "..." ∧ Text.Balanced type.toList ∧
      Text.OnlyInside ',' type.toList)
    ⟨fun ⟨nonempty, no_ellipsis, balanced, inside⟩ => ⟨nonempty, no_ellipsis, balanced, inside⟩,
      fun listed => ⟨listed.nonempty, listed.no_ellipsis, listed.balanced, listed.commas_inside⟩⟩

/-- A type of a list can be told from the commas around it. -/
theorem delimited (listed : IsListedType type) : Text.Delimited ',' type.toList where
  nonempty := by simpa using listed.nonempty
  balanced := listed.balanced
  inside := listed.commas_inside

end IsListedType

namespace Signature

/-- What stands between the parentheses of an identity. -/
def listed (signature : Signature) : List String :=
  signature.parameterTypes ++ (if signature.isVariadic then ["..."] else [])

/-- The text of a signature is its list in brackets and a mark for const. -/
theorem toList_identity (signature : Signature) :
    signature.identity.toList = '(' :: ([','].intercalate (signature.listed.map String.toList) ++
      ')' :: if signature.isConst then "const".toList else []) := by
  unfold identity
  cases signature.isConst <;> simp [listed, String.toList_intercalate]

/-- An ellipsis can be told from the commas around it. -/
theorem delimited_ellipsis : Text.Delimited ',' "...".toList where
  nonempty := by decide
  balanced := by decide
  inside := by decide

/-- Everything that a signature lists can be told from the commas around it. -/
theorem delimited_of_mem_listed {signature : Signature}
    (types : ∀ type ∈ signature.parameterTypes, IsListedType type) :
    ∀ text ∈ signature.listed.map String.toList, Text.Delimited ',' text := by
  intro text member
  obtain ⟨type, listed, rfl⟩ := List.mem_map.mp member
  rcases List.mem_append.mp listed with ofParameter | ellipsis
  · exact (types type ofParameter).delimited
  · cases variadic : signature.isVariadic with
    | false => simp [variadic] at ellipsis
    | true =>
      obtain rfl : type = "..." := by simpa [variadic] using ellipsis
      exact delimited_ellipsis

/-- The list tells the types and whether an ellipsis follows them. -/
theorem listed_injective {one other : Signature}
    (oneTypes : ∀ type ∈ one.parameterTypes, IsListedType type)
    (otherTypes : ∀ type ∈ other.parameterTypes, IsListedType type)
    (same : one.listed = other.listed) :
    one.parameterTypes = other.parameterTypes ∧ one.isVariadic = other.isVariadic := by
  have noEllipsis : ∀ {signature : Signature},
      (∀ type ∈ signature.parameterTypes, IsListedType type) →
        "..." ∉ signature.parameterTypes :=
    fun types member => (types _ member).no_ellipsis rfl
  -- Only a variadic signature lists the ellipsis.
  have variadic : ∀ {signature : Signature},
      (∀ type ∈ signature.parameterTypes, IsListedType type) →
        ("..." ∈ signature.listed ↔ signature.isVariadic = true) := by
    intro signature types
    cases isVariadic : signature.isVariadic <;> simp [listed, isVariadic, noEllipsis types]
  have alike : one.isVariadic = other.isVariadic := by
    rw [Bool.eq_iff_iff, ← variadic oneTypes, ← variadic otherTypes, same]
  refine ⟨?_, alike⟩
  unfold listed at same
  rw [alike] at same
  exact List.append_cancel_right same

/-- Two signatures of listed types have one identity exactly when they have the same parameter
types, may both be called on constants or both not, and both end in an ellipsis or neither. -/
theorem identity_eq_iff {one other : Signature}
    (oneTypes : ∀ type ∈ one.parameterTypes, IsListedType type)
    (otherTypes : ∀ type ∈ other.parameterTypes, IsListedType type) :
    one.identity = other.identity ↔
      one.parameterTypes = other.parameterTypes ∧ one.isConst = other.isConst ∧
        one.isVariadic = other.isVariadic := by
  constructor
  · intro same
    have texts := congrArg String.toList same
    rw [toList_identity, toList_identity, List.cons.injEq] at texts
    -- The last character tells whether the identity ends with the list.
    have alike : one.isConst = other.isConst := by
      have last := congrArg List.getLast? texts.2
      cases first : one.isConst <;> cases second : other.isConst <;>
        simp [first, second] at last ⊢
    rw [alike] at texts
    have lists := List.append_cancel_right texts.2
    have listed := Text.eq_of_intercalate (delimited_of_mem_listed oneTypes)
      (delimited_of_mem_listed otherTypes) lists
    have injective : Function.Injective String.toList := fun _ _ => String.toList_inj.mp
    obtain ⟨types, variadic⟩ :=
      listed_injective oneTypes otherTypes (List.map_injective_iff.mpr injective listed)
    exact ⟨types, alike, variadic⟩
  · rintro ⟨types, alike, variadic⟩
    rw [identity, identity, types, alike, variadic]

/-- A callable that takes one type of two arguments. -/
def takesMap : Signature := ⟨[⟨none, "map<int,long>", false⟩], none, true, false⟩

/-- A callable that takes two types, which are spelled with the same words. -/
def takesBoth : Signature := ⟨[⟨none, "map<int>", false⟩, ⟨none, "long", false⟩], none, true, false⟩

/-- A comma inside the brackets of a type is told from one between two types. -/
theorem identity_eq_iff_takesMap :
    (∀ type ∈ takesMap.parameterTypes, IsListedType type) ∧
      (∀ type ∈ takesBoth.parameterTypes, IsListedType type) ∧
      (takesMap.identity = takesBoth.identity ↔
        takesMap.parameterTypes = takesBoth.parameterTypes ∧
          takesMap.isConst = takesBoth.isConst ∧ takesMap.isVariadic = takesBoth.isVariadic) := by
  have takesMapTypes : ∀ type ∈ takesMap.parameterTypes, IsListedType type := by decide
  have takesBothTypes : ∀ type ∈ takesBoth.parameterTypes, IsListedType type := by decide
  exact ⟨takesMapTypes, takesBothTypes, identity_eq_iff takesMapTypes takesBothTypes⟩

end Signature

namespace Declaration

/-- Two declarations that can only differ in the types of their parameters, as far as keys go. -/
structure AlikeUpToTypes (one other : Declaration) (oneTypes otherTypes : List String) : Prop where
  family : one.kind.family = other.kind.family
  name : one.scopedName = other.scopedName
  signatures : ∃ oneSignature otherSignature, one.signature = some oneSignature ∧
    other.signature = some otherSignature ∧
    oneSignature.parameterTypes = oneTypes ∧ otherSignature.parameterTypes = otherTypes ∧
    oneSignature.isConst = otherSignature.isConst ∧
    oneSignature.isVariadic = otherSignature.isVariadic

/-- Declarations that are alike and take the same types have one key. -/
theorem AlikeUpToTypes.key_eq {one other : Declaration} {types : List String}
    (alike : AlikeUpToTypes one other types types) : one.key = other.key := by
  obtain ⟨oneSignature, otherSignature, oneHas, otherHas, oneTypes, otherTypes, isConst,
    isVariadic⟩ := alike.signatures
  have identity : oneSignature.identity = otherSignature.identity := by
    rw [Signature.identity, Signature.identity, oneTypes, otherTypes, isConst, isVariadic]
  unfold key
  rw [alike.family, alike.name, oneHas, otherHas, Option.map_some, Option.map_some, identity]

end Declaration

end DeclGraph
