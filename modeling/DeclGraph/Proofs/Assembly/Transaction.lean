import DeclGraph.Proofs.Assembly.History

/-!
# Taking up contributions as a whole

A contribution is taken up as a whole or refused as a whole, if every mention in it has a
kind of the family of its key. Mentions are compared with what is known before the first
of them is registered, and with kinds that fit nothing can fail behind that. A kind that
does not fit is noticed only when its mention is registered, after the mentions in front
of it: then a part of the contribution stays.
-/

namespace DeclGraph

/-- Whether the kind of a mention is of the family of its key. -/
def Mention.Fitting (mention : Mention) : Prop := mention.kind.family = mention.key.family

/-- What is known after one more mention: its own entity, and the scopes around it. -/
def Mention.addedTo (mention : Mention) (known : EntityKey → Option Profile) (key : EntityKey) :
    Option Profile :=
  if key = mention.key then some (mention.profileAfter (known key))
  else (known key).or (mention.impliedAround key)

namespace Catalogue

/-- What a catalogue holds after all of some mentions, one after the other. -/
structure RegisteredAll (before after : Catalogue) (mentions : List Mention) : Prop where
  profile : after.graph.profile? =
    mentions.foldl (fun known mention => mention.addedTo known) before.graph.profile?
  keys_kept : ∀ {id : Nat} {key : EntityKey}, before.graph.key? id = some key →
    after.graph.key? id = some key
  moved : after.moved = before.moved

/-- Registering no mention changes nothing. -/
theorem RegisteredAll.nil (catalogue : Catalogue) : catalogue.RegisteredAll catalogue [] where
  profile := rfl
  keys_kept := fun carried => carried
  moved := rfl

/-- One mention is registered in front of the others. -/
theorem Registered.cons {before middle after : Catalogue} {mention : Mention}
    {rest : List Mention} (first : before.Registered middle mention)
    (further : middle.RegisteredAll after rest) : before.RegisteredAll after (mention :: rest) where
  profile := by
    have added : middle.graph.profile? = mention.addedTo before.graph.profile? :=
      funext first.profile
    rw [List.foldl_cons, ← added]
    exact further.profile
  keys_kept := fun carried => further.keys_kept (first.keys_kept carried)
  moved := further.moved.trans first.moved

/-- Fitting mentions are all registered. -/
theorem Housed.succeeds_registerAll {catalogue : Catalogue} (housed : catalogue.Housed [])
    {mentions : List Mention} (fitting : ∀ mention ∈ mentions, mention.Fitting) :
    Action.Succeeds (registerAll mentions) catalogue fun _ after =>
      after.Housed [] ∧ catalogue.RegisteredAll after mentions := by
  induction mentions generalizing catalogue with
  | nil => exact Action.ensures_pure ⟨housed, .nil catalogue⟩
  | cons mention rest further =>
    obtain ⟨fits, others⟩ := List.forall_mem_cons.mp fitting
    unfold registerAll
    refine Action.ensures_bind (Action.ensures_bind ((ensures_register housed mention).mono ?_ ?_))
    · rintro _ middle ⟨_, housedMiddle, registered⟩
      apply Action.ensures_pure
      refine (further housedMiddle others).weaken fun _ after held => ?_
      exact ⟨held.1, registered.cons held.2⟩
    · rintro _ ⟨misfit, _⟩
      exact misfit fits

end Catalogue

namespace Assembly

/-- A contribution of fitting mentions is taken up with every mention, and waits under its
path, or it is refused for a conflict and the assembly stays as it is. -/
theorem merge_all_or_nothing {settings : Settings} {assembly : Assembly}
    (reached : Reached settings assembly) (contribution : Contribution)
    (fitting : ∀ mention ∈ contribution.mentions, mention.Fitting) :
    (∃ catalogue, assembly.merge contribution =
        ({ assembly with catalogue, units := assembly.units.keep contribution.pending }, .ok ()) ∧
      assembly.catalogue.RegisteredAll catalogue contribution.mentions) ∨
    ∃ conflict, assembly.merge contribution =
      (assembly, .error (.conflict contribution.path conflict)) := by
  cases found : assembly.catalogue.firstConflict? [] contribution.mentions with
  | some conflict => exact .inr ⟨conflict, merge_of_conflict found⟩
  | none =>
    left
    obtain ⟨housed, _⟩ := reached.invariant
    obtain ⟨_, catalogue, ran, _, all⟩ := (housed.succeeds_registerAll fitting).run
    refine ⟨catalogue, ?_, all⟩
    simp only [merge, found, ran]

/-- The header of a function is taken up as a whole. -/
theorem merge_all_or_nothing_header :
    (∀ mention ∈ (headerUnit.contribution {}).mentions, mention.Fitting) ∧
      ((∃ catalogue, (Assembly.empty {}).merge (headerUnit.contribution {}) =
          ({ Assembly.empty {} with
              catalogue,
              units := (Assembly.empty {}).units.keep (headerUnit.contribution {}).pending },
            .ok ()) ∧
        (Assembly.empty {}).catalogue.RegisteredAll catalogue
          (headerUnit.contribution {}).mentions) ∨
      ∃ conflict, (Assembly.empty {}).merge (headerUnit.contribution {}) =
        (Assembly.empty {}, .error (.conflict (headerUnit.contribution {}).path conflict))) := by
  have fitting : ∀ mention ∈ (headerUnit.contribution {}).mentions, mention.Fitting :=
    fun mention member => (SourceUnit.regular_of_mem_mentions member).family
  exact ⟨fitting, merge_all_or_nothing .start (headerUnit.contribution {}) fitting⟩

/-- A contribution that fails halfway leaves the scope that its first mention creates. -/
theorem merge_halfway_leaves_scope :
    ((Assembly.empty {}).merge halfway).2 = .error (.graph (.kindOutsideFamily
      .freeFunction (.scope ⟨["shapes", "Circle"]⟩))) ∧
    ((Assembly.empty {}).merge halfway).1 ≠ Assembly.empty {} := by
  refine ⟨rfl, fun same => ?_⟩
  have count : ((Assembly.empty {}).merge halfway).1.catalogue.graph.nextNode = 2 := rfl
  rw [same] at count
  cases count

end Assembly

end DeclGraph
