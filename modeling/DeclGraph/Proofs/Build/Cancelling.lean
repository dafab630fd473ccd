import DeclGraph.Proofs.Build.Order

/-!
# Cancelled builds

A build that is cancelled while it reads one input after the other is the build of what was
read before, but for the note that it was cancelled. It takes in the inputs in front of the
one that raised the flag, and since the flag was up before the merging began, all of them
are merged.
-/

namespace DeclGraph.Build

/-- A part of some inputs is read one after the other if all of them are. -/
theorem readsInTurn_of_sublist {settings : Settings} {inputs kept : List BuildInput}
    (oneByOne : settings.readsInTurn inputs.length = true) (inside : kept.Sublist inputs) :
    settings.readsInTurn kept.length = true := by
  have fewer := inside.length_le
  simp only [Settings.readsInTurn, Bool.or_eq_true, decide_eq_true_eq] at oneByOne ⊢
  exact oneByOne.imp_right fun few => Nat.lt_of_le_of_lt fewer few

/-- A build that reads one input after the other and is cancelled by the reading of a path gives
what a build of the inputs before it gives, with the note that it was cancelled. If these give
nothing since the time spent on them is too long, it gives nothing either. -/
theorem run_atStartOf (pool : WorkerPool) (settings : Settings) (path : FilePath)
    (inputs : List BuildInput) (oneByOne : settings.readsInTurn inputs.length = true)
    (reached : ∃ input ∈ inputs, input.path.same path) :
    (∃ whole : BuildOutput, run pool settings .never (inputsBefore path inputs) = .ok whole ∧
      whole.summary.cancelled = false ∧
      run pool settings (.atStartOf path) inputs = .ok
        { whole with summary := { whole.summary with cancelled := true } }) ∨
    (run pool settings .never (inputsBefore path inputs) = .error .timeOverflow ∧
      run pool settings (.atStartOf path) inputs = .error .timeOverflow ∧
      Duration.limit ≤ readingTime (inputsBefore path inputs)) := by
  have struck : (inputs.any fun input => input.path.same path) = true := by simpa using reached
  have before : settings.readsInTurn (inputsBefore path inputs).length = true :=
    readsInTurn_of_sublist oneByOne (List.takeWhile_sublist _)
  rw [run_of_intake (intake_never pool before), run_of_intake (intake_atStartOf pool path oneByOne),
    struck]
  rcases merged_or_overflow settings (inputsBefore path inputs) with
    ⟨last, finished, advances, done⟩ | ⟨failed, long⟩
  · have whole : assemble settings .never ⟨false, inputsBefore path inputs⟩ = .ok _ :=
      assemble_of_advances (fun _ => rfl) advances done
    have cancelled : assemble settings (.atStartOf path) ⟨true, inputsBefore path inputs⟩ = .ok _ :=
      assemble_of_advances (fun _ => rfl) advances done
    exact .inl ⟨_, whole, rfl, cancelled⟩
  · have none : assemble settings .never ⟨false, inputsBefore path inputs⟩ = _ :=
      assemble_of_failure (fun _ => rfl) failed
    have cancelled : assemble settings (.atStartOf path) ⟨true, inputsBefore path inputs⟩ = _ :=
      assemble_of_failure (fun _ => rfl) failed
    exact .inr ⟨none, cancelled, long⟩

/-- Three files are read, of which the second cannot be had, before the flag is raised by
a path that is given with a needless dot. -/
theorem run_atStartOf_third :
    let inputs : List BuildInput :=
      [.ofUnit Assembly.sourceUnit,
        ⟨.ofText "lost.h", .error (.inaccessible (.ofText "lost.h") .missing)⟩,
        .ofUnit Assembly.contraryUnit, .ofUnit Assembly.headerUnit]
    let settings : Settings := { parallel := false }
    settings.readsInTurn inputs.length = true ∧
      (∃ input ∈ inputs, input.path.same (.ofText "area.h/.")) ∧
      ∃ whole : BuildOutput,
        run .single settings .never (inputsBefore (.ofText "area.h/.") inputs) = .ok whole ∧
        whole.summary.cancelled = false ∧
        run .single settings (.atStartOf (.ofText "area.h/.")) inputs = .ok
          { whole with summary := { whole.summary with cancelled := true } } := by
  intro inputs settings
  have oneByOne : settings.readsInTurn inputs.length = true := rfl
  have reached : ∃ input ∈ inputs, input.path.same (.ofText "area.h/.") :=
    ⟨.ofUnit Assembly.headerUnit, by simp [inputs], by decide⟩
  refine ⟨oneByOne, reached, ?_⟩
  refine (run_atStartOf .single settings (.ofText "area.h/.") inputs oneByOne
    reached).resolve_right ?_
  exact fun overflow => absurd overflow.2.2 (by decide)

end DeclGraph.Build
