import DeclGraph.Catalogue.Basic

/-!
# Reasoning about actions

What an action does to a catalogue is said by two conditions: one on its result
and the catalogue behind it, and one on the catalogue that a failure leaves. The
rules of this module take an action apart in the order in which it runs.
-/

namespace DeclGraph.Catalogue.Action

variable {α β : Type}

/-- Run in a catalogue, the action either gives a result as `done` has it, or
fails and leaves a catalogue as `failed` has it. -/
def Ensures (action : Action α) (before : Catalogue) (done : α → Catalogue → Prop)
    (failed : Catalogue → Prop) : Prop :=
  match action.run.run before with
  | (.ok result, after) => done result after
  | (.error _, after) => failed after

/-- Run in a catalogue, the action gives a result as `done` has it. -/
abbrev Succeeds (action : Action α) (before : Catalogue) (done : α → Catalogue → Prop) : Prop :=
  Ensures action before done fun _ => False

variable {before : Catalogue} {done : α → Catalogue → Prop} {failed : Catalogue → Prop}

/-- What is ensured ensures everything that follows from it. -/
theorem Ensures.mono {action : Action α} {weaker : α → Catalogue → Prop}
    {weakerFailed : Catalogue → Prop} (ensured : Ensures action before done failed)
    (onResult : ∀ result after, done result after → weaker result after)
    (onFailure : ∀ after, failed after → weakerFailed after) :
    Ensures action before weaker weakerFailed := by
  unfold Ensures at ensured ⊢
  cases outcome : action.run.run before with
  | mk result after =>
    rw [outcome] at ensured
    cases result with
    | ok result => exact onResult result after ensured
    | error error => exact onFailure after ensured

/-- Two things that are ensured are ensured together. -/
theorem Ensures.and {action : Action α} {alsoDone : α → Catalogue → Prop}
    {alsoFailed : Catalogue → Prop} (ensured : Ensures action before done failed)
    (also : Ensures action before alsoDone alsoFailed) :
    Ensures action before (fun result after => done result after ∧ alsoDone result after)
      fun after => failed after ∧ alsoFailed after := by
  unfold Ensures at ensured also ⊢
  cases outcome : action.run.run before with
  | mk result after =>
    rw [outcome] at ensured also
    cases result with
    | ok result => exact ⟨ensured, also⟩
    | error error => exact ⟨ensured, also⟩

/-- An action that cannot fail satisfies every condition on failures. -/
theorem Succeeds.ensures {action : Action α} (success : Succeeds action before done) :
    Ensures action before done failed :=
  success.mono (fun _ _ held => held) (fun _ impossible => impossible.elim)

/-- A success ensures everything that follows from its result. -/
theorem Succeeds.weaken {action : Action α} {weaker : α → Catalogue → Prop}
    (success : Succeeds action before done)
    (onResult : ∀ result after, done result after → weaker result after) :
    Succeeds action before weaker :=
  success.mono onResult fun _ impossible => impossible

/-- A success is a run that ends with a result. -/
theorem Succeeds.run {action : Action α} (success : Succeeds action before done) :
    ∃ result after, action.run.run before = (.ok result, after) ∧ done result after := by
  unfold Succeeds Ensures at success
  cases outcome : action.run.run before with
  | mk result after =>
    rw [outcome] at success
    cases result with
    | ok result => exact ⟨result, after, rfl, success⟩
    | error error => exact success.elim

/-- What is ensured holds of a run that ends with a result. -/
theorem Ensures.of_run {action : Action α} {result : α} {after : Catalogue}
    (ensured : Ensures action before done failed)
    (ran : action.run.run before = (.ok result, after)) : done result after := by
  unfold Ensures at ensured
  rwa [ran] at ensured

/-- A value that is returned leaves the catalogue as it is. -/
theorem ensures_pure {value : α} (held : done value before) :
    Ensures (pure value) before done failed := held

/-- The second of two actions runs in the catalogue that the first leaves, unless that fails. -/
theorem run_bind (first : Action β) (next : β → Action α) (before : Catalogue) :
    (first >>= next).run.run before =
      match first.run.run before with
      | (.ok result, after) => (next result).run.run after
      | (.error error, after) => (.error error, after) := by
  show (ExceptT.bind first next).run.run before = _
  simp only [ExceptT.bind, ExceptT.run, ExceptT.mk, ExceptT.bindCont, StateT.run, bind,
    StateT.bind]
  cases outcome : first before with
  | mk result after => cases result <;> rfl

/-- A sequence ensures what its second part does in everything that its first part may leave. -/
theorem ensures_bind {first : Action β} {next : β → Action α}
    (ensured : Ensures first before (fun result after => Ensures (next result) after done failed)
      failed) :
    Ensures (first >>= next) before done failed := by
  unfold Ensures at ensured ⊢
  rw [run_bind]
  cases outcome : first.run.run before with
  | mk result after =>
    rw [outcome] at ensured
    cases result with
    | ok result => exact ensured
    | error error => exact ensured

/-- Reading the catalogue gives the catalogue as it is. -/
theorem ensures_get {done : Catalogue → Catalogue → Prop} (held : done before before) :
    Ensures get before done failed := held

/-- A modification ensures what holds of the modified catalogue. -/
theorem ensures_modify {done : Unit → Catalogue → Prop} {change : Catalogue → Catalogue}
    (held : done () (change before)) : Ensures (modify change) before done failed := held

/-- Reading something that is there succeeds and changes nothing. -/
theorem ensures_reading {look : Graph → Except GraphError α} {result : α}
    (found : look before.graph = .ok result) (held : done result before) :
    Ensures (reading look) before done failed := by
  refine ensures_bind (ensures_get ?_)
  simp only [found]
  exact ensures_pure held

/-- A change of the graph that succeeds changes nothing but the graph. -/
theorem ensures_changing {change : Graph → Except GraphError (Graph × α)} {graph : Graph}
    {result : α} (changed : change before.graph = .ok (graph, result))
    (held : done result { before with graph }) :
    Ensures (changing change) before done failed := by
  refine ensures_bind (ensures_get ?_)
  simp only [changed]
  exact ensures_bind (ensures_modify (ensures_pure held))

/-- A change that the graph refuses leaves the catalogue as it is. -/
theorem ensures_changing_of_error {change : Graph → Except GraphError (Graph × α)}
    {error : GraphError} (refused : change before.graph = .error error) (held : failed before) :
    Ensures (changing change) before done failed := by
  refine ensures_bind (ensures_get ?_)
  simp only [refused]
  exact held

/-- An edit of the graph that succeeds changes nothing but the graph. -/
theorem ensures_editing {done : Unit → Catalogue → Prop} {change : Graph → Except GraphError Graph}
    {graph : Graph} (changed : change before.graph = .ok graph)
    (held : done () { before with graph }) : Ensures (editing change) before done failed :=
  ensures_changing (by simp [changed, Except.map]) held

/-- An edit of the graph that is refused leaves the catalogue as it was. -/
theorem ensures_editing_of_error {done : Unit → Catalogue → Prop}
    {change : Graph → Except GraphError Graph} {error : GraphError}
    (refused : change before.graph = .error error) (held : failed before) :
    Ensures (editing change) before done failed :=
  ensures_changing_of_error (by simp only [refused, Except.map]; rfl) held

/-- What holds with the whole list ahead, and passes from each item to the rest,
holds in the end with nothing ahead. -/
theorem ensures_forM {items : List β} {step : β → Action Unit} (ahead : List β → Catalogue → Prop)
    (each : ∀ item rest catalogue, item :: rest <:+ items → ahead (item :: rest) catalogue →
      Ensures (step item) catalogue (fun _ => ahead rest) failed)
    (start : ahead items before) :
    Ensures (items.forM step) before (fun _ => ahead []) failed := by
  induction items generalizing before with
  | nil => exact ensures_pure start
  | cons item rest further =>
    refine ensures_bind ((each item rest before (List.suffix_refl _) start).mono ?_ ?_)
    · intro _ after held
      refine further (fun other tail catalogue isSuffix => ?_) held
      exact each other tail catalogue (isSuffix.trans (List.suffix_cons item rest))
    · exact fun _ held => held

/-- What every item keeps, the whole list keeps. -/
theorem ensures_forM_invariant {items : List β} {step : β → Action Unit}
    (invariant : Catalogue → Prop)
    (each : ∀ item ∈ items, ∀ catalogue, invariant catalogue →
      Ensures (step item) catalogue (fun _ => invariant) failed)
    (start : invariant before) :
    Ensures (items.forM step) before (fun _ => invariant) failed :=
  ensures_forM (fun _ => invariant)
    (fun item _ catalogue isSuffix held =>
      each item (isSuffix.subset (List.mem_cons_self)) catalogue held) start

/-- Readings of a list of items that all find something find the list of what is
found. -/
theorem ensures_mapM_reading {items : List β} {look : β → Graph → Except GraphError α}
    {done : List α → Catalogue → Prop}
    (found : ∀ item ∈ items, ∃ value, look item before.graph = .ok value)
    (held : done (items.filterMap fun item => (look item before.graph).toOption) before) :
    Ensures (items.mapM fun item => reading (look item)) before done failed := by
  induction items generalizing done with
  | nil => exact ensures_pure held
  | cons item rest further =>
    obtain ⟨value, first⟩ := found item List.mem_cons_self
    rw [List.mapM_cons]
    refine ensures_bind (ensures_reading first ?_)
    refine ensures_bind (further (fun other member => found other (List.mem_cons_of_mem _ member))
      (ensures_pure ?_))
    simpa [first, Except.toOption] using held

/-- A condition that the action keeps, whether it gives a result or fails. -/
def Keeps (invariant : Catalogue → Prop) (action : Action α) : Prop :=
  ∀ ⦃before⦄, invariant before → Ensures action before (fun _ => invariant) invariant

section Keeping

variable {invariant : Catalogue → Prop}

/-- What an action keeps holds after every run, whether it fails or not. -/
theorem Keeps.after {action : Action α} (keeps : Keeps invariant action)
    (held : invariant before) : invariant (action.run.run before).2 := by
  have ensured := keeps held
  unfold Ensures at ensured
  cases outcome : action.run.run before with
  | mk result after =>
    rw [outcome] at ensured
    cases result with
    | ok result => exact ensured
    | error error => exact ensured

/-- A value that is returned keeps everything. -/
theorem keeps_pure (value : α) : Keeps invariant (pure value) := fun _ held => ensures_pure held

/-- Reading the catalogue keeps everything. -/
theorem keeps_get : Keeps invariant get := fun _ held => ensures_get held

/-- A sequence keeps what both its parts keep. -/
theorem keeps_bind {first : Action β} {next : β → Action α} (keepsFirst : Keeps invariant first)
    (keepsNext : ∀ result, Keeps invariant (next result)) : Keeps invariant (first >>= next) :=
  fun _ held => ensures_bind
    ((keepsFirst held).mono (fun result _ still => keepsNext result still) fun _ still => still)

/-- A modification keeps what holds of the modified catalogue whenever it did before. -/
theorem keeps_modify {change : Catalogue → Catalogue}
    (keeps : ∀ before, invariant before → invariant (change before)) :
    Keeps invariant (modify change) :=
  fun before held => ensures_modify (keeps before held)

/-- Reading the graph keeps everything, even if nothing is found. -/
theorem keeps_reading (look : Graph → Except GraphError α) : Keeps invariant (reading look) := by
  intro before held
  cases found : look before.graph with
  | ok result => exact ensures_reading found held
  | error error =>
    refine ensures_bind (ensures_get ?_)
    simp only [found]
    exact held

/-- A change of the graph keeps what does not depend on the graph. -/
theorem keeps_changing {change : Graph → Except GraphError (Graph × α)}
    (keeps : ∀ before graph, invariant before → invariant { before with graph }) :
    Keeps invariant (changing change) := by
  intro before held
  cases changed : change before.graph with
  | ok outcome => exact ensures_changing changed (keeps before outcome.1 held)
  | error error => exact ensures_changing_of_error changed held

/-- An edit of the graph keeps what holds of the edited graph. -/
theorem keeps_editing {change : Graph → Except GraphError Graph}
    (keeps : ∀ before graph, invariant before → change before.graph = .ok graph →
      invariant { before with graph }) :
    Keeps invariant (editing change) := by
  intro before held
  cases changed : change before.graph with
  | ok graph => exact ensures_editing changed (keeps before graph held changed)
  | error error => exact ensures_editing_of_error changed held

/-- A loop keeps what each of its steps keeps. -/
theorem keeps_forM {items : List β} {step : β → Action Unit}
    (keeps : ∀ item, Keeps invariant (step item)) : Keeps invariant (items.forM step) :=
  fun _ held => ensures_forM_invariant invariant (fun item _ _ still => keeps item still) held

/-- A loop that collects results keeps what each of its steps keeps. -/
theorem keeps_mapM {items : List β} {step : β → Action α}
    (keeps : ∀ item, Keeps invariant (step item)) : Keeps invariant (items.mapM step) := by
  induction items with
  | nil => exact keeps_pure []
  | cons item rest further =>
    rw [List.mapM_cons]
    exact keeps_bind (keeps item) fun _ => keeps_bind further fun _ => keeps_pure _

end Keeping

end DeclGraph.Catalogue.Action
