import DeclGraph.Proofs.Catalogue.Housed

/-!
# Following moves

A key leads through the moves to the key of the node that it stands for now. A
chain of moves that ends passes no key twice, so it has no more links than there
are moves, and the bound on the hops cuts only those that never end.
-/

namespace DeclGraph

namespace Catalogue

variable {catalogue : Catalogue} {key last : EntityKey}

/-- The moves lead from a key to another, and no further. -/
inductive SettlesAt (catalogue : Catalogue) : EntityKey → EntityKey → Prop where
  | stays {key : EntityKey} (unmoved : catalogue.moved[key]? = none) :
    SettlesAt catalogue key key
  | leads {key next last : EntityKey} (moved : catalogue.moved[key]? = some next)
    (further : SettlesAt catalogue next last) : SettlesAt catalogue key last

/-- A key that was not moved is settled where it is. -/
theorem settledKey?_of_unmoved (unmoved : catalogue.moved[key]? = none) (hops : Nat) :
    catalogue.settledKey? hops key = some key := by
  unfold settledKey?
  rw [unmoved]

/-- Without hops left a key that was moved is not settled. -/
theorem settledKey?_zero {next : EntityKey} (moved : catalogue.moved[key]? = some next) :
    catalogue.settledKey? 0 key = none := by
  unfold settledKey?
  rw [moved]

/-- A hop leads from a key to the one that it was moved to. -/
theorem settledKey?_succ {next : EntityKey} (moved : catalogue.moved[key]? = some next)
    (hops : Nat) :
    catalogue.settledKey? (hops + 1) key = catalogue.settledKey? hops next := by
  conv => lhs; unfold settledKey?
  rw [moved]

/-- Where hops lead, the moves lead. -/
theorem settlesAt_of_settledKey? {hops : Nat}
    (settled : catalogue.settledKey? hops key = some last) : catalogue.SettlesAt key last := by
  induction hops generalizing key with
  | zero =>
    cases moved : catalogue.moved[key]? with
    | none =>
      rw [settledKey?_of_unmoved moved] at settled
      exact Option.some.inj settled ▸ .stays moved
    | some next =>
      rw [settledKey?_zero moved] at settled
      cases settled
  | succ hops further =>
    cases moved : catalogue.moved[key]? with
    | none =>
      rw [settledKey?_of_unmoved moved] at settled
      exact Option.some.inj settled ▸ .stays moved
    | some next =>
      rw [settledKey?_succ moved] at settled
      exact .leads moved (further settled)

/-- A chain that ends passes each key once, and needs a hop for each key it passes. -/
theorem SettlesAt.exists_passed (settles : catalogue.SettlesAt key last) :
    ∃ passed : List EntityKey, passed.Nodup ∧ (∀ former ∈ passed, former ∈ catalogue.moved) ∧
      (∀ hops, catalogue.settledKey? hops key =
        if passed.length ≤ hops then some last else none) ∧
      ∀ former ∈ passed, ∀ hops, passed.length ≤ hops →
        (catalogue.settledKey? hops former).isSome := by
  induction settles with
  | stays unmoved =>
    exact ⟨[], List.nodup_nil, by simp, by simp [settledKey?_of_unmoved unmoved], by simp⟩
  | @leads key next last moved _ further =>
    obtain ⟨passed, nodup, inMoved, settled, enough⟩ := further
    have settledHere : ∀ hops, catalogue.settledKey? hops key =
        if (key :: passed).length ≤ hops then some last else none := by
      intro hops
      cases hops with
      | zero => simp [settledKey?_zero moved]
      | succ hops => simp [settledKey?_succ moved, settled]
    -- Had it been passed, the key would need fewer hops than it does.
    have new : key ∉ passed := by
      intro again
      have early := enough key again passed.length (Nat.le_refl _)
      rw [settledHere, if_neg (by rw [List.length_cons]; omega)] at early
      cases early
    refine ⟨key :: passed, List.nodup_cons.mpr ⟨new, nodup⟩, ?_, settledHere, ?_⟩
    · intro former member
      rcases List.mem_cons.mp member with rfl | earlier
      · rw [Std.ExtTreeMap.mem_iff_isSome_getElem?, moved]
        rfl
      · exact inMoved former earlier
    · intro former member hops long
      rw [List.length_cons] at long
      rcases List.mem_cons.mp member with rfl | earlier
      · rw [settledHere, if_pos (by simpa using long)]
        rfl
      · exact enough former earlier hops (by omega)

/-- The bound on the hops cuts no chain that ends. -/
theorem settledKey?_eq_some :
    catalogue.settledKey? catalogue.moved.size key = some last ↔ catalogue.SettlesAt key last := by
  constructor
  · exact settlesAt_of_settledKey?
  · intro settles
    obtain ⟨passed, nodup, inMoved, settled, _⟩ := settles.exists_passed
    have inKeys : passed ⊆ catalogue.moved.keys := fun former member =>
      Std.ExtTreeMap.mem_keys.mpr (inMoved former member)
    have short := nodup.length_le_of_subset inKeys
    rw [Std.ExtTreeMap.length_keys] at short
    rw [settled, if_pos short]

/-- A key stands for the node at whose key the moves from it end. -/
theorem nodeByKey?_eq_some (sound : catalogue.graph.Sound) {id : Nat} :
    catalogue.nodeByKey? key = some id ↔
      ∃ last, catalogue.SettlesAt key last ∧ catalogue.graph.key? id = some last := by
  unfold nodeByKey?
  simp only [Option.bind_eq_some_iff, settledKey?_eq_some, sound.nodeByKey?_eq_some]

/-- Where a key leads depends on the moves alone. -/
theorem SettlesAt.of_moved (settles : catalogue.SettlesAt key last) {other : Catalogue}
    (same : other.moved = catalogue.moved) : other.SettlesAt key last := by
  induction settles with
  | stays unmoved => exact .stays (same ▸ unmoved)
  | leads moved _ further => exact .leads (same ▸ moved) further

end Catalogue

end DeclGraph
