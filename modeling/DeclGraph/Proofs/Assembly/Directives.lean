import DeclGraph.Proofs.Assembly.History
import Mathlib.Data.List.Forall2

/-!
# Units without their directives

Directives say nothing about entities. Whether a unit is taken up, and what is
known afterwards, is the same without them; only what waits for the end differs.
-/

namespace DeclGraph

section Tables

variable {α β : Type} {cmp : α → α → Ordering} [Std.TransCmp cmp] [Std.LawfulEqCmp cmp]

end Tables

namespace SourceUnit

end SourceUnit

/-- A change of the directives of units, and of nothing else. -/
structure Redirects (redirect : SourceUnit → SourceUnit) : Prop where
  path : ∀ unit, (redirect unit).path = unit.path
  mentions : ∀ unit, (redirect unit).mentions = unit.mentions

/-- A change of directives changes nothing that units mention. -/
theorem Redirects.allMentions {redirect : SourceUnit → SourceUnit} (redirects : Redirects redirect)
    (units : List SourceUnit) : allMentions (units.map redirect) = allMentions units := by
  simp [DeclGraph.allMentions, List.flatMap_map, redirects.mentions]

/-- What is kept of a unit stands under its path, as the path was first given. -/
theorem PendingUnits.getElem?_keep (units : PendingUnits) (unit : Pending)
    (path : List FilePath.Component) :
    (units.keep unit)[path]? =
      if unit.path.components = path then
        some { unit with path := (units[unit.path.components]?.map (·.path)).getD unit.path }
      else units[path]? := by
  unfold keep
  cases held : units[unit.path.components]? <;>
    simp [Std.ExtTreeMap.getElem?_insert, Std.LawfulEqCmp.compare_eq_iff_eq]

namespace Assembly

variable {settings : Settings} {units : List SourceUnit} {assembly : Assembly}

/-- What waits under a path with and without a change of directives: what one of the units
taken up left there, under the path as it was first given. -/
def WaitsRedirected (settings : Settings) (redirect : SourceUnit → SourceUnit)
    (units : List SourceUnit) (path : List FilePath.Component) (one other : Pending) : Prop :=
  ∃ unit ∈ units, ∃ first ∈ units, unit.path.components = path ∧ first.path.components = path ∧
    one = { (unit.contribution settings).pending with path := first.path } ∧
    other = { ((redirect unit).contribution settings).pending with path := first.path }

/-- Under each path the same or nothing waits, but for a change of directives. -/
def AllRedirected (settings : Settings) (redirect : SourceUnit → SourceUnit)
    (units : List SourceUnit) (first second : PendingUnits) : Prop :=
  ∀ path, (first[path]? = none ∧ second[path]? = none) ∨
    ∃ one other, first[path]? = some one ∧ second[path]? = some other ∧
      WaitsRedirected settings redirect units path one other

variable {redirect : SourceUnit → SourceUnit}

/-- What waits was left by one of the units also when there is one unit more. -/
theorem WaitsRedirected.later {path : List FilePath.Component} {one other : Pending}
    (waits : WaitsRedirected settings redirect units path one other) (unit : SourceUnit) :
    WaitsRedirected settings redirect (units ++ [unit]) path one other := by
  obtain ⟨left, leftMember, first, firstMember, rest⟩ := waits
  exact ⟨left, List.mem_append_left _ leftMember, first, List.mem_append_left _ firstMember, rest⟩

/-- One unit more waits, with and without the change. -/
theorem AllRedirected.keep {first second : PendingUnits}
    (waits : AllRedirected settings redirect units first second) (redirects : Redirects redirect)
    (unit : SourceUnit) :
    AllRedirected settings redirect (units ++ [unit])
      (first.keep (unit.contribution settings).pending)
      (second.keep ((redirect unit).contribution settings).pending) := by
  intro path
  have ownPath : (unit.contribution settings).pending.path = unit.path := rfl
  have samePath : ((redirect unit).contribution settings).pending.path = unit.path :=
    redirects.path unit
  simp only [PendingUnits.getElem?_keep, ownPath, samePath]
  by_cases here : unit.path.components = path
  · subst here
    have newest : unit ∈ units ++ [unit] := by simp
    simp only [if_true]
    rcases waits unit.path.components with ⟨none, noneToo⟩ |
      ⟨one, another, held, heldToo, _, _, given, givenMember, _, givenPath, rfl, rfl⟩
    · rw [none, noneToo]
      exact .inr ⟨_, _, rfl, rfl, unit, newest, unit, newest, rfl, rfl, rfl, rfl⟩
    · -- The path stays as the first unit under it gave it.
      rw [held, heldToo]
      exact .inr ⟨_, _, rfl, rfl, unit, newest, given, List.mem_append_left _ givenMember, rfl,
        givenPath, rfl, rfl⟩
  · rw [if_neg here, if_neg here]
    rcases waits path with none | ⟨one, another, held, heldToo, waiting⟩
    · exact .inl none
    · exact .inr ⟨one, another, held, heldToo, waiting.later unit⟩

/-- Without some directives the same units are taken up, and the same is known. -/
theorem TakenUp.redirected (taken : TakenUp settings units assembly)
    (redirects : Redirects redirect) :
    ∃ other, TakenUp settings (units.map redirect) other ∧ other.catalogue = assembly.catalogue ∧
      AllRedirected settings redirect units assembly.units other.units := by
  induction taken with
  | start =>
    exact ⟨.empty settings, .start, rfl, fun path => .inl ⟨by simp [empty], by simp [empty]⟩⟩
  | @next units before after unit earlier accepted further =>
    obtain ⟨other, otherTaken, sameCatalogue, waits⟩ := further
    have history := earlier.history
    have otherHistory := otherTaken.history
    rcases history.mergeUnit_cases unit with
      ⟨agreeing, catalogue, ran, took, _⟩ | ⟨_, _, refused⟩
    · rw [accepted] at took
      obtain rfl : after = before.grown catalogue unit := congrArg Prod.fst took
      have otherTook : other.mergeUnit (redirect unit) =
          (other.grown catalogue (redirect unit), .ok ()) := by
        rcases otherHistory.mergeUnit_cases (redirect unit) with
          ⟨_, otherCatalogue, otherRan, otherTook, _⟩ | ⟨contradicts, _⟩
        · rw [redirects.mentions, sameCatalogue, ran] at otherRan
          obtain rfl : catalogue = otherCatalogue := congrArg Prod.snd otherRan
          exact otherTook
        · rw [redirects.allMentions, redirects.mentions] at contradicts
          exact absurd agreeing contradicts
      refine ⟨other.grown catalogue (redirect unit), by simpa using otherTaken.next otherTook, rfl,
        ?_⟩
      simp only [grown, history.settings, otherHistory.settings]
      exact waits.keep redirects unit
    · rw [accepted] at refused
      cases refused

/-- What waits was left by one of the units taken up. -/
theorem TakenUp.exists_owner (taken : TakenUp settings units assembly) {pending : Pending}
    (member : pending ∈ assembly.units.values) :
    ∃ owner ∈ units, ∃ given ∈ units,
      pending = { (owner.contribution settings).pending with path := given.path } := by
  obtain ⟨path, held⟩ := mem_values.mp member
  have unchanged : Redirects id := ⟨fun _ => rfl, fun _ => rfl⟩
  obtain ⟨_, _, _, waits⟩ := taken.redirected unchanged
  rcases waits path with ⟨none, _⟩ | ⟨one, _, heldToo, _, waiting⟩
  · rw [held] at none
    cases none
  · rw [held] at heldToo
    cases heldToo
    obtain ⟨owner, ownerMember, given, givenMember, _, _, same, _⟩ := waiting
    exact ⟨owner, ownerMember, given, givenMember, same⟩

end Assembly

end DeclGraph
