/-!
# Lists without repeats

Search results are listed in the order in which they are found, each once.
-/

namespace DeclGraph

variable {α : Type} [BEq α]

/-- Adds a value at the end unless it is there already. -/
def addNew (found : List α) (value : α) : List α :=
  if found.contains value then found else found ++ [value]

/-- Keeps the first occurrence of every value. -/
def distinct (values : List α) : List α :=
  values.foldl addNew []

section Lawful

variable [LawfulBEq α]

/-- A value that is added is found, and so is everything that was found before. -/
@[simp] theorem mem_addNew {found : List α} {value other : α} :
    other ∈ addNew found value ↔ other ∈ found ∨ other = value := by
  unfold addNew
  split
  · rename_i present
    have member : value ∈ found := by simpa using present
    constructor
    · exact Or.inl
    · rintro (old | rfl)
      · exact old
      · exact member
  · simp

/-- Adding a value never repeats it. -/
theorem nodup_addNew {found : List α} (value : α) (distinctSoFar : found.Nodup) :
    (addNew found value).Nodup := by
  unfold addNew
  split
  · exact distinctSoFar
  · rename_i absent
    have notMember : value ∉ found := by simpa using absent
    rw [List.nodup_append]
    refine ⟨distinctSoFar, by simp, ?_⟩
    intro first inFound second inSingle same
    simp at inSingle
    subst inSingle same
    exact notMember inFound

/-- After some values have been added, they and what was found before are found. -/
theorem mem_foldl_addNew {values found : List α} {other : α} :
    other ∈ values.foldl addNew found ↔ other ∈ found ∨ other ∈ values := by
  induction values generalizing found with
  | nil => simp
  | cons value rest step => simp [step, or_assoc]

/-- Adding values one after the other repeats none of them. -/
theorem nodup_foldl_addNew {values found : List α} (distinctSoFar : found.Nodup) :
    (values.foldl addNew found).Nodup := by
  induction values generalizing found with
  | nil => simpa using distinctSoFar
  | cons value rest step => exact step (nodup_addNew value distinctSoFar)

/-- Dropping repetitions loses no value. -/
@[simp] theorem mem_distinct {values : List α} {other : α} :
    other ∈ distinct values ↔ other ∈ values := by
  simp [distinct, mem_foldl_addNew]

/-- What is left without repetitions has none. -/
theorem nodup_distinct (values : List α) : (distinct values).Nodup :=
  nodup_foldl_addNew List.nodup_nil

end Lawful

end DeclGraph
