import DeclGraph.Proofs.Assembly.Finishing
import DeclGraph.Proofs.Assembly.Moves
import DeclGraph.Proofs.Catalogue.Corresponding
import DeclGraph.Proofs.Catalogue.Joining
import DeclGraph.Proofs.Catalogue.SideBySide

/-!
# Preparing side by side

Catalogues that know the same entities and say the same of them are prepared on behalf of the same
units. The same scopes are moved to the same places, and the same kinds are settled, so that the
prepared catalogues correspond.
-/

namespace DeclGraph

namespace Catalogue

/-- Two actions that run in a catalogue each both succeed, and what they leave is related. -/
def Action.SucceedTogether (first second : Action Unit) (one other : Catalogue)
    (related : Catalogue → Catalogue → Prop) : Prop :=
  Succeeds first one fun _ oneAfter =>
    Succeeds second other fun _ otherAfter => related oneAfter otherAfter

/-- What actions succeed with together holds of their runs. -/
theorem Action.SucceedTogether.of_run {first second : Action Unit}
    {one other oneAfter otherAfter : Catalogue} {related : Catalogue → Catalogue → Prop}
    (together : SucceedTogether first second one other related)
    (ran : first.run.run one = (.ok (), oneAfter))
    (ranToo : second.run.run other = (.ok (), otherAfter)) : related oneAfter otherAfter := by
  have next : Succeeds second other fun _ otherAfter => related oneAfter otherAfter :=
    Ensures.of_run together ran
  exact next.of_run ranToo

variable {first second firstMiddle secondMiddle firstAfter secondAfter : Catalogue}

/-- Other kinds make nothing known or unknown. -/
theorem Rekinded.known_iff {kindOf : Node → EntityKind} (settled : first.Rekinded firstAfter kindOf)
    (housed : first.Housed []) {key : EntityKey} :
    (firstAfter.graph.profile? key).isSome ↔ (first.graph.profile? key).isSome := by
  simp only [housed.sound.profile?_isSome, settled.housed.sound.profile?_isSome, settled.key?]

/-- Other kinds lead nowhere else. -/
theorem Rekinded.leads_eq {kindOf : Node → EntityKind} (settled : first.Rekinded firstAfter kindOf)
    (id : Nat) (relation : Relation) :
    firstAfter.graph.leads id relation = first.graph.leads id relation := by
  rw [settled.others]
  rfl

namespace Corresponds

variable (corresponds : first.Corresponds second)

include corresponds

/-- Nodes say the same of an entity once their kinds are settled alike. -/
theorem profile_rekinded {kindOf kindOfToo : Node → EntityKind}
    (settled : first.Rekinded firstAfter kindOf)
    (settledToo : second.Rekinded secondAfter kindOfToo)
    (alike : ∀ {one other : Nat} {node : Node}, first.graph.Counterparts second.graph one other →
      first.graph.nodeTable[one]? = some node → kindOfToo { node with id := other } = kindOf node)
    (key : EntityKey) : firstAfter.graph.profile? key = secondAfter.graph.profile? key := by
  cases there : firstAfter.graph.profile? key with
  | none =>
    have unknown : ¬ (secondAfter.graph.profile? key).isSome := by
      rw [settledToo.known_iff corresponds.housedToo, ← corresponds.profile,
        ← settled.known_iff corresponds.housed, there]
      simp
    exact (Option.not_isSome_iff_eq_none.mp unknown).symm
  | some profile =>
    obtain ⟨one, node, found, rfl, rfl⟩ := settled.housed.sound.profile?_eq_some.mp there
    obtain ⟨former, held, rfl⟩ := settled.exists_former found
    obtain ⟨other, carried⟩ := corresponds.exists_key (Graph.key?_of_node held)
    have same : first.graph.Counterparts second.graph one other :=
      ⟨_, Graph.key?_of_node held, carried⟩
    have after := (settledToo.nodeTable other).trans
      (congrArg (Option.map _) (corresponds.node same held))
    rw [Option.map_some, alike same held] at after
    exact (settledToo.housed.sound.profile?_of_node after).symm

/-- Kinds that are settled alike leave catalogues that correspond. -/
theorem rekinded {kindOf kindOfToo : Node → EntityKind} (settled : first.Rekinded firstAfter kindOf)
    (settledToo : second.Rekinded secondAfter kindOfToo)
    (alike : ∀ {one other : Nat} {node : Node}, first.graph.Counterparts second.graph one other →
      first.graph.nodeTable[one]? = some node → kindOfToo { node with id := other } = kindOf node) :
    firstAfter.Corresponds secondAfter := by
  have counterparts : firstAfter.graph.Counterparts secondAfter.graph =
      first.graph.Counterparts second.graph := by
    funext one other
    simp only [Graph.Counterparts, settled.key?, settledToo.key?]
  refine ⟨settled.housed, settledToo.housed, ?_,
    corresponds.profile_rekinded settled settledToo alike, ?_, ?_, ?_⟩
  · exact corresponds.named.of_known fun there =>
      .inl ((settled.known_iff corresponds.housed).mp there)
  · rw [settled.moved, settledToo.moved, corresponds.moved]
  · intro relation isLeading one other same
    unfold Graph.LeadAlike
    rw [counterparts] at same ⊢
    rw [settled.leads_eq, settledToo.leads_eq]
    exact corresponds.leads isLeading same
  · intro relation apart one other target targetToo same sameTarget
    rw [counterparts] at same sameTarget
    rw [settled.related, settledToo.related]
    exact corresponds.related apart same sameTarget

/-- A scope holds members in both catalogues or in none. -/
theorem holdsMembers_eq {scope scopeToo : Nat}
    (same : first.graph.Counterparts second.graph scope scopeToo) :
    holdsMembers first.graph scope = holdsMembers second.graph scopeToo := by
  have members := corresponds.children same
  rw [Bool.eq_iff_iff]
  simp only [holdsMembers, List.any_eq_true, List.mem_filterMap]
  constructor
  · rintro ⟨node, ⟨member, listed, found⟩, needs⟩
    obtain ⟨memberToo, listedToo, held⟩ := members.onto member listed
    exact ⟨_, ⟨memberToo, listedToo, corresponds.node held found⟩, needs⟩
  · rintro ⟨node, ⟨member, listed, found⟩, needs⟩
    obtain ⟨memberToo, listedToo, held⟩ := members.back member listed
    exact ⟨_, ⟨memberToo, listedToo, corresponds.symm.node held.symm found⟩, needs⟩

/-- The kind of a scope is settled alike in both catalogues. -/
theorem scopeKind_eq {one other : Nat} {node : Node}
    (same : first.graph.Counterparts second.graph one other)
    (found : first.graph.nodeTable[one]? = some node) :
    second.scopeKind { node with id := other } = first.scopeKind node := by
  obtain rfl := corresponds.housed.sound.node_id found
  unfold scopeKind
  rw [corresponds.holdsMembers_eq same]

/-- The kind of a function is settled alike in both catalogues. -/
theorem functionKind_eq {one other : Nat} {node : Node}
    (same : first.graph.Counterparts second.graph one other)
    (found : first.graph.nodeTable[one]? = some node) :
    second.functionKind { node with id := other } = first.functionKind node := by
  obtain rfl := corresponds.housed.sound.node_id found
  have lies := corresponds.parent? same
  unfold functionKind
  dsimp only
  generalize first.graph.parent? node.id = scope at lies ⊢
  generalize second.graph.parent? other = scopeToo at lies ⊢
  cases lies with
  | none => rfl
  | some held => rw [Option.any_some, Option.any_some, corresponds.isRecord_eq held]

/-- Settling kinds leaves catalogues that correspond. -/
theorem together_settleKinds :
    Action.SucceedTogether settleKinds settleKinds first second Corresponds := by
  refine (succeeds_settleKinds corresponds.housed).weaken ?_
  rintro _ firstAfter ⟨firstMiddle, scopes, functions⟩
  refine (succeeds_settleKinds corresponds.housedToo).weaken ?_
  rintro _ secondAfter ⟨secondMiddle, scopesToo, functionsToo⟩
  have middle := corresponds.rekinded scopes scopesToo corresponds.scopeKind_eq
  exact middle.rekinded functions functionsToo middle.functionKind_eq

end Corresponds

/-- Relocations of catalogues that say the same, of which nothing is left out. -/
structure SameSoFar (start first second : Catalogue) : Prop extends
    SideBySide start [] (fun _ => True) first second where
  moved : first.moved = second.moved

namespace SameSoFar

variable {start : Catalogue} {viewpoint : Viewpoint} {name : ScopedName}
  (both : SameSoFar start first second)

include both

/-- Nothing is left out, so that both know the same of every name. -/
theorem profile_eq (key : EntityKey) :
    first.graph.profile? key = second.graph.profile? key :=
  both.agree key fun _ _ => List.not_mem_nil

/-- What is relocated in both in the same way corresponds. -/
theorem corresponds : first.Corresponds second := by
  have before := both.firstSteady.before
  have beforeToo := both.secondSteady.before
  exact corresponds_of_unlinked before.housed beforeToo.housed before.unlinked beforeToo.unlinked
    before.named both.profile_eq both.moved

/-- The same relocation moves the same in both. -/
theorem makes (makes : first.Makes firstAfter (first.moveMade? viewpoint name))
    (makesToo : second.Makes secondAfter (second.moveMade? viewpoint name)) :
    SameSoFar start firstAfter secondAfter := by
  have everything : ∀ name : ScopedName, name.Avoids [] := fun _ _ _ => List.not_mem_nil
  obtain ⟨same, may⟩ := both.moveMade?_eq (fun _ => everything _) List.not_mem_nil
    (fun _ _ => ⟨everything _, fun _ _ => List.not_mem_nil⟩) (.inr trivial)
  refine ⟨both.makes_both (fun _ => everything _) same makes makesToo may, ?_⟩
  rw [same] at makesToo
  cases made : first.moveMade? viewpoint name with
  | none =>
    rw [made] at makes makesToo
    obtain rfl : firstAfter = first := makes
    obtain rfl : secondAfter = second := makesToo
    exact both.moved
  | some move =>
    rw [made] at makes makesToo
    exact Std.ExtTreeMap.ext_getElem? fun key => by
      rw [makes.moved, makesToo.moved, both.profile_eq, both.moved]

end SameSoFar

end Catalogue

namespace Assembly

variable {settings : Settings} {units others : List SourceUnit} {assembly other : Assembly}

/-- What is asked for is relocated alike in both catalogues. -/
theorem sameSoFar_relocated {start first second : Catalogue}
    (both : Catalogue.SameSoFar start first second) (asked : List (Viewpoint × ScopedName)) :
    Catalogue.SameSoFar start (relocated first asked) (relocated second asked) := by
  induction asked generalizing first second with
  | nil => exact both
  | cons item later further =>
    have housed := both.firstSteady.before.housed
    have housedToo := both.secondSteady.before.housed
    rw [relocated_cons housed, relocated_cons housedToo]
    exact further (both.makes (makes_relocated housed item.1 item.2)
      (makes_relocated housedToo item.1 item.2))

/-- Catalogues that say the same are prepared alike on behalf of the same units. -/
theorem together_prepare {start first second : Catalogue}
    (both : Catalogue.SameSoFar start first second) (pending : List Pending) :
    Catalogue.Action.SucceedTogether (prepare pending) (prepare pending) first second
      Catalogue.Corresponds := by
  have settled := (sameSoFar_relocated both (relocations pending)).corresponds.together_settleKinds
  unfold Catalogue.Action.SucceedTogether Catalogue.Action.Succeeds Catalogue.Action.Ensures
    at settled ⊢
  rwa [prepare_run_eq both.firstSteady.before.housed, prepare_run_eq both.secondSteady.before.housed]

end Assembly

end DeclGraph
