import DeclGraph.Assembly.Finish
import DeclGraph.Build.Summary
import DeclGraph.Build.Workers

/-!
# Builds

A build reads a list of inputs and merges what was read in the order of paths, so the
outcome does not depend on the order in which inputs are given or read. What was read
before the flag was raised is merged nevertheless. A flag that is raised only after
everything was read ends the merging in front of the next input.
-/

namespace DeclGraph

/-- A graph with the summary of its build. -/
structure BuildOutput where
  graph : Graph
  summary : Summary
deriving DecidableEq

/-- Why a build gives no graph. -/
inductive BuildFailure where
  | noWorkers (reason : String)
  | graph (error : GraphError)
  /-- The time spent on reading all units is too long for a duration. -/
  | timeOverflow
deriving DecidableEq

/-- The text reported for a failure. A time that is too long is reported by the
arithmetic of durations. -/
def BuildFailure.message : BuildFailure → String
  | .noWorkers reason => "Failed to create thread pool: " ++ reason
  | .graph error => error.message
  | .timeOverflow => "overflow when adding durations"

namespace Build

/-- How far the merging has come. -/
structure Progress where
  assembly : Assembly
  summary : Summary
deriving DecidableEq

/-- The inputs in the order of their paths; inputs of one path stay in order. -/
def inPathOrder (inputs : List BuildInput) : List BuildInput :=
  inputs.mergeSort fun first second => first.path.notAfter second.path

/-- Merges what was read from an input and counts it. An input that could not be read is
skipped, one that contradicts others is rejected, and only another failure ends the
build. -/
def mergeInput (progress : Progress) (input : BuildInput) : Except BuildFailure Progress :=
  match progress.summary.statistics.merge? (.ofOutcome input.result) with
  | none => .error .timeOverflow
  | some statistics =>
    let summary := { progress.summary with statistics }
    match input.result with
    | .error cause =>
      .ok { progress with
        summary := { summary with skipped := summary.skipped ++ [⟨input.path, cause⟩] } }
    | .ok unit =>
      match progress.assembly.mergeUnit unit with
      | (assembly, .ok _) =>
        .ok ⟨assembly, { summary with merged := summary.merged ++ [input.path] }⟩
      | (assembly, .error (.conflict unit conflict)) =>
        .ok ⟨assembly, { summary with
          rejected := summary.rejected ++ [⟨input.path, .conflict unit conflict⟩] }⟩
      | (_, .error (.graph error)) => .error (.graph error)

/-- Merges inputs one after the other, with the flag as it is. Raised in the
course of the merging it ends the merging; raised while inputs were read
(`readingCancelled`) it ends nothing. -/
def mergeInputs (cancellation : Cancellation) (readingCancelled : Bool) :
    Bool → Progress → List BuildInput → Except BuildFailure (Bool × Progress)
  | raised, progress, [] => .ok (raised, progress)
  | raised, progress, input :: rest =>
    if raised && !readingCancelled then .ok (raised, progress)
    else do
      let next ← mergeInput progress input
      mergeInputs cancellation readingCancelled
        (raised || cancellation.strikesBehind input.path) next rest

/-- Links what was merged and completes the summary. -/
def complete (raised : Bool) (progress : Progress) : Except BuildFailure BuildOutput := do
  let finished ← progress.assembly.finish.mapError .graph
  return {
    graph := finished.graph
    summary := { progress.summary with
      unresolved := finished.unresolved
      cancelled := raised } }

/-- Merges and links what was read. Whatever was merged before the build was cancelled is
linked. -/
def assemble (settings : Settings) (cancellation : Cancellation) (taken : Intake) :
    Except BuildFailure BuildOutput := do
  let (raised, progress) ← mergeInputs cancellation taken.cancelled taken.cancelled
    ⟨.empty settings, {}⟩ (inPathOrder taken.inputs)
  complete raised progress

/-- Builds the graph of a list of inputs, which are read by one worker or several. -/
def run (pool : WorkerPool) (settings : Settings) (cancellation : Cancellation)
    (inputs : List BuildInput) : Except BuildFailure BuildOutput := do
  let taken ← (intake pool settings cancellation inputs).mapError .noWorkers
  assemble settings cancellation taken

end Build

end DeclGraph
