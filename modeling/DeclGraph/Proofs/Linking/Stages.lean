import DeclGraph.Proofs.Assembly.Finish
import DeclGraph.Proofs.Linking.Frame

/-!
# The stages of a linking

A linking that succeeds is a run of eight passes, one after the other. What is known of a
pass holds of its part of the run. After the pass over the bases no pass changes what a
lookup finds.
-/

namespace DeclGraph

namespace Linking

variable {α β : Type} {before after : Linking} {result : α}

/-- What a step succeeds with holds of its run. -/
theorem Succeeds.of_run {step : Step α} {done : α → Linking → Prop}
    (success : Succeeds step before done) (ran : step before = .ok (result, after)) :
    done result after := by
  obtain ⟨_, _, ranToo, held⟩ := success
  rw [ran] at ranToo
  cases ranToo
  exact held

/-- A run of two steps is a run of the first and then one of the second. -/
theorem exists_of_bind {first : Step β} {next : β → Step α}
    (ran : (first >>= next) before = .ok (result, after)) :
    ∃ value middle, first before = .ok (value, middle) ∧
      next value middle = .ok (result, after) := by
  simp only [bind, StateT.bind, Except.bind] at ran
  cases start : first before with
  | error error =>
    rw [start] at ran
    cases ran
  | ok pair =>
    obtain ⟨value, middle⟩ := pair
    rw [start] at ran
    exact ⟨value, middle, rfl, ran⟩

/-- A linking with what each of its passes has left. -/
structure Stages (references : List SeenReference) (start last : Linking) where
  aliased : Linking
  based : Linking
  fielded : Linking
  signed : Linking
  overloaded : Linking
  overridden : Linking
  called : Linking
  aliases : linkAliases references start = .ok ((), aliased)
  bases : linkBases references aliased = .ok ((), based)
  fields : linkFields references based = .ok ((), fielded)
  signatures : linkSignatures references fielded = .ok ((), signed)
  overloads : linkOverloads signed = .ok ((), overloaded)
  overrides : linkOverrides overloaded = .ok ((), overridden)
  calls : linkCalls references overridden = .ok ((), called)
  locals : linkLocals references called = .ok ((), last)

/-- A linking that succeeds has passed all stages. -/
theorem exists_stages {units : List Pending} {prepared : Catalogue} {last : Linking}
    (ran : Linking.run prepared units = .ok last) :
    Nonempty (Stages (seenReferences units) ⟨prepared, []⟩ last) := by
  have all : linkAll (seenReferences units) ⟨prepared, []⟩ = .ok ((), last) := by
    unfold Linking.run StateT.run at ran
    cases linked : linkAll (seenReferences units) ⟨prepared, []⟩ with
    | error error =>
      simp only [linked, bind, Except.bind] at ran
      cases ran
    | ok pair =>
      simp only [linked, bind, Except.bind, pure, Except.pure] at ran
      cases ran
      rfl
  obtain ⟨_, aliased, aliases, rest⟩ := exists_of_bind all
  obtain ⟨_, based, bases, rest⟩ := exists_of_bind rest
  obtain ⟨_, fielded, fields, rest⟩ := exists_of_bind rest
  obtain ⟨_, signed, signatures, rest⟩ := exists_of_bind rest
  obtain ⟨_, overloaded, overloads, rest⟩ := exists_of_bind rest
  obtain ⟨_, overridden, overrides, rest⟩ := exists_of_bind rest
  obtain ⟨_, called, calls, locals⟩ := exists_of_bind rest
  exact ⟨⟨aliased, based, fielded, signed, overloaded, overridden, called, aliases, bases, fields,
    signatures, overloads, overrides, calls, locals⟩⟩

/-- What edges are added for once lookups find what they will find. -/
def quietBonds : List Bond :=
  fieldBonds ++ signatureBonds ++ .overloads :: .overrides :: .calls :: localBonds

/-- No quiet bond leads a name anywhere. -/
theorem quietBonds_quiet : ∀ bond ∈ quietBonds, bond.leads = false := by decide

namespace Stages

variable {references : List SeenReference} {start last : Linking}
  (stages : Stages references start last) (housed : start.catalogue.Housed [])

include stages housed

/-- The pass over aliases adds their bonds alone. -/
theorem toAliased : start.Grows aliasBonds stages.aliased :=
  ((succeeds_linkAliases housed references).of_run stages.aliases).1

/-- The pass over base classes adds inheritance alone. -/
theorem aliasedToBased : stages.aliased.Grows [.inherits] stages.based :=
  (succeeds_linkBases ((stages.toAliased housed).housed housed) references).of_run stages.bases

/-- The first two passes add bonds that a run of all passes may add. -/
theorem toBased : start.Grows allBonds stages.based :=
  ((stages.toAliased housed).mono (by decide)).trans
    ((stages.aliasedToBased housed).mono (by decide))

/-- The catalogue is housed once the base classes are linked. -/
theorem housed_based : stages.based.catalogue.Housed [] := (stages.toBased housed).housed housed

/-- The pass over fields adds their bonds alone. -/
theorem basedToFielded : stages.based.Grows fieldBonds stages.fielded :=
  ((succeeds_linkFields (stages.housed_based housed) references).of_run stages.fields).1

/-- The catalogue is housed once the fields are linked. -/
theorem housed_fielded : stages.fielded.catalogue.Housed [] :=
  (stages.basedToFielded housed).housed (stages.housed_based housed)

/-- The pass over signatures adds their bonds alone. -/
theorem fieldedToSigned : stages.fielded.Grows signatureBonds stages.signed :=
  ((succeeds_linkSignatures (stages.housed_fielded housed) references).of_run
    stages.signatures).1

/-- The passes up to that over signatures add the earlier bonds alone. -/
theorem toSigned : start.Grows earlierBonds stages.signed :=
  ((stages.toAliased housed).mono (by decide)).trans
    (((stages.aliasedToBased housed).mono (by decide)).trans
      (((stages.basedToFielded housed).mono (by decide)).trans
        ((stages.fieldedToSigned housed).mono (by decide))))

/-- The catalogue is housed once the signatures are linked. -/
theorem housed_signed : stages.signed.catalogue.Housed [] :=
  (stages.fieldedToSigned housed).housed (stages.housed_fielded housed)

/-- The pass over overloads adds overloads alone. -/
theorem signedToOverloaded : stages.signed.Grows [.overloads] stages.overloaded :=
  ((succeeds_linkOverloads (stages.housed_signed housed)).of_run stages.overloads).1

/-- The passes up to that over overloads add the earlier bonds and overloads. -/
theorem toOverloaded : start.Grows (earlierBonds ++ [.overloads]) stages.overloaded :=
  ((stages.toSigned housed).mono (by decide)).trans
    ((stages.signedToOverloaded housed).mono (by decide))

/-- The catalogue is housed once the overloads are linked. -/
theorem housed_overloaded : stages.overloaded.catalogue.Housed [] :=
  (stages.signedToOverloaded housed).housed (stages.housed_signed housed)

/-- The pass over overrides adds overrides alone. -/
theorem overloadedToOverridden : stages.overloaded.Grows [.overrides] stages.overridden :=
  ((succeeds_linkOverrides (stages.housed_overloaded housed)).of_run stages.overrides).1

/-- The passes over overloads and overrides add nothing else. -/
theorem signedToOverridden :
    stages.signed.Grows [.overloads, .overrides] stages.overridden :=
  ((stages.signedToOverloaded housed).mono (by decide)).trans
    ((stages.overloadedToOverridden housed).mono (by decide))

/-- The catalogue is housed once the overrides are linked. -/
theorem housed_overridden : stages.overridden.catalogue.Housed [] :=
  (stages.signedToOverridden housed).housed (stages.housed_signed housed)

/-- The pass over calls adds calls alone. -/
theorem overriddenToCalled : stages.overridden.Grows [.calls] stages.called :=
  (succeeds_linkCalls (stages.housed_overridden housed) references).of_run stages.calls

/-- The catalogue is housed once the calls are linked. -/
theorem housed_called : stages.called.catalogue.Housed [] :=
  (stages.overriddenToCalled housed).housed (stages.housed_overridden housed)

/-- The pass over local variables adds their bonds alone. -/
theorem calledToLast : stages.called.Grows localBonds last :=
  ((succeeds_linkLocals (stages.housed_called housed) references).of_run stages.locals).1

/-- The pass over fields leads no name elsewhere. -/
theorem basedToFielded_quiet : stages.based.Grows quietBonds stages.fielded :=
  (stages.basedToFielded housed).mono (by decide)

/-- The passes from signatures to calls lead no name elsewhere. -/
theorem fieldedToCalled : stages.fielded.Grows quietBonds stages.called :=
  (((stages.fieldedToSigned housed).mono (by decide)).trans
    ((stages.signedToOverridden housed).mono (by decide))).trans
    ((stages.overriddenToCalled housed).mono (by decide))

/-- From the base classes on up to the calls no name is led elsewhere. -/
theorem basedToCalled : stages.based.Grows quietBonds stages.called :=
  (stages.basedToFielded_quiet housed).trans (stages.fieldedToCalled housed)

/-- After the overloads only later bonds are added. -/
theorem overloadedToLast : stages.overloaded.Grows laterBonds last :=
  ((stages.overloadedToOverridden housed).mono (by decide)).trans
    (((stages.overriddenToCalled housed).mono (by decide)).trans
      ((stages.calledToLast housed).mono (by decide)))

/-- After the overrides no name is led elsewhere. -/
theorem overriddenToLast : stages.overridden.Grows quietBonds last :=
  ((stages.overriddenToCalled housed).mono (by decide)).trans
    ((stages.calledToLast housed).mono (by decide))

/-- After the signatures no name is led elsewhere. -/
theorem signedToLast : stages.signed.Grows quietBonds last :=
  ((stages.signedToOverridden housed).mono (by decide)).trans (stages.overriddenToLast housed)

/-- After the fields no name is led elsewhere. -/
theorem fieldedToLast : stages.fielded.Grows quietBonds last :=
  ((stages.fieldedToSigned housed).mono (by decide)).trans (stages.signedToLast housed)

/-- After the base classes no name is led elsewhere. -/
theorem basedToLast : stages.based.Grows quietBonds last :=
  (stages.basedToFielded_quiet housed).trans (stages.fieldedToLast housed)

/-- From the base classes on up to the signatures no name is led elsewhere. -/
theorem basedToSigned : stages.based.Grows quietBonds stages.signed :=
  (stages.basedToFielded_quiet housed).trans ((stages.fieldedToSigned housed).mono (by decide))

/-- From the base classes on up to the overloads no name is led elsewhere. -/
theorem basedToOverloaded : stages.based.Grows quietBonds stages.overloaded :=
  (stages.basedToSigned housed).trans ((stages.signedToOverloaded housed).mono (by decide))

/-- All that linking adds before it links calls. -/
theorem toOverridden : start.Grows (earlierBonds ++ [.overloads, .overrides]) stages.overridden :=
  ((stages.toSigned housed).mono (by decide)).trans
    ((stages.signedToOverridden housed).mono (by decide))

/-- A run of all passes adds bonds of the passes alone. -/
theorem toLast : start.Grows allBonds last :=
  ((stages.toOverridden housed).mono (by decide)).trans
    ((stages.overriddenToLast housed).mono (by decide))

end Stages

end Linking

end DeclGraph
