import DeclGraph.Proofs.Attributes
import DeclGraph.Proofs.Graph.Changes

/-!
# Edges that are asked for again

Two nodes that are related again in the same way keep the one edge between them. The first request
creates the edge with its attributes as they are, every further one adds its lists to those of the
edge. Where all that is given are strictly increasing lists, the edge ends up with the lists of all
that was given, so that it does not matter which request came first.
-/

namespace DeclGraph

/-- Whether a value is a strictly increasing list. -/
def Value.IsIncreasingList : Value → Prop
  | .texts values => values.Pairwise fun left right => compare left right = .lt
  | .ints values => values.Pairwise fun left right => compare left right = .lt
  | _ => False

/-- What is gathered from lists, if there are any: the strictly increasing list of all that is in
one of them. -/
structure Gathered {α : Type} [Ord α] (lists : List (List α)) (gathered : Option (List α)) :
    Prop where
  eq_none_iff : gathered = none ↔ lists = []
  increasing : ∀ values, gathered = some values →
    values.Pairwise fun left right => compare left right = .lt
  mem_iff : ∀ values, gathered = some values →
    ∀ value, value ∈ values ↔ ∃ list ∈ lists, value ∈ list

namespace Gathered

variable {α : Type} [Ord α] {lists : List (List α)} {gathered : Option (List α)}

/-- Nothing is gathered from no list. -/
theorem nil : Gathered ([] : List (List α)) none where
  eq_none_iff := by simp
  increasing := by simp
  mem_iff := by simp

/-- One list in order is gathered as it is. -/
theorem singleton {values : List α}
    (increasing : values.Pairwise fun left right => compare left right = .lt) :
    Gathered [values] (some values) where
  eq_none_iff := by simp
  increasing := by
    rintro _ ⟨⟩
    exact increasing
  mem_iff := by
    rintro _ ⟨⟩ value
    simp

/-- One more list is united with what was gathered before. -/
theorem union [Std.TransOrd α] [Std.LawfulEqOrd α] [BEq α] [LawfulBEq α]
    (gathers : Gathered lists gathered) (values : List α) :
    Gathered (lists ++ [values]) (some (sortedUnion (gathered.getD []) values)) where
  eq_none_iff := by simp
  increasing := by
    rintro _ ⟨⟩
    exact sortedUnion_increasing _ _
  mem_iff := by
    rintro _ ⟨⟩ value
    have before : value ∈ gathered.getD [] ↔ ∃ list ∈ lists, value ∈ list := by
      cases known : gathered with
      | none => simp [gathers.eq_none_iff.mp known]
      | some held => exact gathers.mem_iff held known value
    simp [before, or_and_right, exists_or]

/-- Only one list can be gathered, whatever the order. -/
theorem eq_of_perm [Std.TransOrd α] {others : List (List α)} {other : Option (List α)}
    (first : Gathered lists gathered) (second : Gathered others other)
    (perm : lists.Perm others) : gathered = other := by
  cases firstKnown : gathered with
  | none =>
    have nothing : others = [] := by
      rw [first.eq_none_iff.mp firstKnown] at perm
      exact perm.nil_eq.symm
    exact (second.eq_none_iff.mpr nothing).symm
  | some values =>
    cases secondKnown : other with
    | none =>
      rw [second.eq_none_iff.mp secondKnown] at perm
      rw [first.eq_none_iff.mpr perm.eq_nil] at firstKnown
      cases firstKnown
    | some more =>
      refine congrArg some (eq_of_ordered Std.OrientedCmp.not_lt_of_lt
        (first.increasing values firstKnown) (second.increasing more secondKnown) fun value => ?_)
      rw [first.mem_iff values firstKnown, second.mem_iff more secondKnown]
      simp only [perm.mem_iff]

end Gathered

namespace Attributes

/-- Attributes that are strictly increasing lists throughout, and under no key texts in one map
and numbers in another. -/
structure ListsAlike (given : List Attributes) : Prop where
  lists : ∀ attributes ∈ given, ∀ (key : String) (value : Value),
    attributes[key]? = some value → value.IsIncreasingList
  alike : ∀ one ∈ given, ∀ other ∈ given, ∀ (key : String) (texts : List String)
    (numbers : List Int64), one[key]? = some (.texts texts) → other[key]? ≠ some (.ints numbers)

/-- Attributes that hold under each key the strictly increasing list of all that some maps give
for it, and nothing else. -/
structure Gathers (given : List Attributes) (attributes : Attributes) : Prop where
  lists : ∀ (key : String) (value : Value), attributes[key]? = some value → value.IsIncreasingList
  texts : ∀ key, Gathered (given.filterMap (·.texts? key)) (attributes.texts? key)
  ints : ∀ key, Gathered (given.filterMap (·.ints? key)) (attributes.ints? key)

variable {given others : List Attributes} {attributes next : Attributes}

/-- It does not matter in which order attributes are given whose lists are alike. -/
theorem ListsAlike.perm (fits : ListsAlike given) (perm : others.Perm given) :
    ListsAlike others where
  lists := fun map listed => fits.lists map (perm.mem_iff.mp listed)
  alike := fun one oneListed other otherListed =>
    fits.alike one (perm.mem_iff.mp oneListed) other (perm.mem_iff.mp otherListed)

/-- Numbers are there when the entry of the key is that list of numbers. -/
theorem ints?_eq_some {key : String} {numbers : List Int64} :
    attributes.ints? key = some numbers ↔ attributes[key]? = some (.ints numbers) := by
  unfold ints?
  cases attributes[key]? with
  | none => simp
  | some value => cases value <;> simp [Value.ints?]

/-- One set of attributes is gathered as it is. -/
theorem Gathers.singleton (fits : ListsAlike [attributes]) : Gathers [attributes] attributes := by
  have lists := fits.lists attributes (by simp)
  refine ⟨lists, fun key => ?_, fun key => ?_⟩
  · cases held : attributes.texts? key with
    | none => simpa [held] using Gathered.nil
    | some values => simpa [held] using Gathered.singleton (lists key _ (texts?_eq_some.mp held))
  · cases held : attributes.ints? key with
    | none => simpa [held] using Gathered.nil
    | some values => simpa [held] using Gathered.singleton (lists key _ (ints?_eq_some.mp held))

/-- Where a map gives numbers, no map before it gave texts. -/
theorem Gathers.texts?_eq_none (gathers : Gathers given attributes)
    (fits : ListsAlike (given ++ [next])) {key : String} {numbers : List Int64}
    (held : next[key]? = some (.ints numbers)) : attributes.texts? key = none := by
  refine (gathers.texts key).eq_none_iff.mpr (List.filterMap_eq_nil_iff.mpr fun one listed => ?_)
  refine Option.eq_none_iff_forall_ne_some.mpr fun texts known => ?_
  exact fits.alike one (by simp [listed]) next (by simp) key texts numbers
    (texts?_eq_some.mp known) held

/-- Where a map gives texts, no map before it gave numbers. -/
theorem Gathers.ints?_eq_none (gathers : Gathers given attributes)
    (fits : ListsAlike (given ++ [next])) {key : String} {texts : List String}
    (held : next[key]? = some (.texts texts)) : attributes.ints? key = none := by
  refine (gathers.ints key).eq_none_iff.mpr (List.filterMap_eq_nil_iff.mpr fun one listed => ?_)
  refine Option.eq_none_iff_forall_ne_some.mpr fun numbers known => ?_
  exact fits.alike next (by simp) one (by simp [listed]) key texts numbers held
    (ints?_eq_some.mp known)

/-- An edge that absorbs one more map has gathered that map too. -/
theorem Gathers.absorb (gathers : Gathers given attributes)
    (fits : ListsAlike (given ++ [next])) : Gathers (given ++ [next]) (attributes.absorb next) := by
  -- Each key is decided by what the further map holds under it.
  have atKey : ∀ key : String,
      (∀ value, (attributes.absorb next)[key]? = some value → value.IsIncreasingList) ∧
        Gathered ((given ++ [next]).filterMap (·.texts? key))
          ((attributes.absorb next).texts? key) ∧
        Gathered ((given ++ [next]).filterMap (·.ints? key))
          ((attributes.absorb next).ints? key) := by
    intro key
    have united := attributes.getElem?_absorb next key
    rw [List.filterMap_append, List.filterMap_append]
    cases held : next[key]? with
    | none =>
      rw [held] at united
      have texts := gathers.texts key
      have ints := gathers.ints key
      refine ⟨fun value known => gathers.lists key value (united.symm.trans known), ?_, ?_⟩
      · simpa [texts?, united, held] using texts
      · simpa [ints?, united, held] using ints
    | some value =>
      rw [held] at united
      have increasing := fits.lists next (by simp) key value held
      cases value with
      | texts values =>
        have noNumbers := gathers.ints?_eq_none fits held
        have ints := gathers.ints key
        rw [noNumbers] at ints
        refine ⟨?_, ?_, ?_⟩
        · intro value known
          rw [united] at known
          cases known
          exact sortedUnion_increasing _ _
        · simpa [texts?, united, held, Value.texts?, absorbed] using
            (gathers.texts key).union values
        · simpa [ints?, united, held, Value.ints?, absorbed] using ints
      | ints values =>
        have noTexts := gathers.texts?_eq_none fits held
        have texts := gathers.texts key
        rw [noTexts] at texts
        refine ⟨?_, ?_, ?_⟩
        · intro value known
          rw [united] at known
          cases known
          exact sortedUnion_increasing _ _
        · simpa [texts?, united, held, Value.texts?, absorbed] using texts
        · simpa [ints?, united, held, Value.ints?, absorbed] using (gathers.ints key).union values
      | text _ | int _ | flag _ => exact increasing.elim
  exact ⟨fun key => (atKey key).1, fun key => (atKey key).2.1, fun key => (atKey key).2.2⟩

/-- The first map with all further ones absorbed gathers them all. -/
theorem gathers_foldl_absorb {first : Attributes} {rest : List Attributes}
    (fits : ListsAlike (first :: rest)) :
    Gathers (first :: rest) (rest.foldl Attributes.absorb first) := by
  have before : ∀ taken, taken <+: first :: rest → ListsAlike taken := fun taken isPrefix =>
    ⟨fun map listed => fits.lists map (isPrefix.subset listed), fun one oneListed other otherListed =>
      fits.alike one (isPrefix.subset oneListed) other (isPrefix.subset otherListed)⟩
  have along : ∀ ahead taken held, taken ++ ahead = first :: rest → Gathers taken held →
      Gathers (first :: rest) (ahead.foldl Attributes.absorb held) := by
    intro ahead
    induction ahead with
    | nil =>
      intro taken held all gathers
      rw [List.append_nil] at all
      exact all ▸ gathers
    | cons next ahead further =>
      intro taken held all gathers
      have all' : (taken ++ [next]) ++ ahead = first :: rest := by simpa using all
      exact further (taken ++ [next]) _ all' (gathers.absorb (before _ ⟨ahead, all'⟩))
  exact along rest [first] first rfl (.singleton (before [first] ⟨rest, rfl⟩))

/-- Only one map gathers some maps, whatever their order. -/
theorem Gathers.eq_of_perm {other : Attributes} (first : Gathers given attributes)
    (second : Gathers others other) (perm : given.Perm others) : attributes = other := by
  refine Std.ExtTreeMap.ext_getElem? fun key => ?_
  have texts := (first.texts key).eq_of_perm (second.texts key) (perm.filterMap _)
  have ints := (first.ints key).eq_of_perm (second.ints key) (perm.filterMap _)
  -- A map of lists is told by its texts and its numbers.
  have told : ∀ {map : Attributes}, (∀ value, map[key]? = some value → value.IsIncreasingList) →
      map[key]? = ((map.texts? key).map Value.texts).or ((map.ints? key).map Value.ints) := by
    intro map lists
    unfold texts? ints?
    cases held : map[key]? with
    | none => rfl
    | some value =>
      have increasing := lists value held
      cases value with
      | texts values | ints values => rfl
      | text _ | int _ | flag _ => exact increasing.elim
  rw [told (first.lists key), told (second.lists key), texts, ints]

end Attributes

namespace Graph

/-- Relates two nodes once for each of some attribute maps, and gives the number of the edge each
time. -/
def connectEach (graph : Graph) (source target : Nat) (relation : Relation) :
    List Attributes → Except GraphError (Graph × List Nat)
  | [] => .ok (graph, [])
  | attributes :: rest =>
    match graph.connect source target relation attributes with
    | .error error => .error error
    | .ok (grown, id) =>
      (grown.connectEach source target relation rest).map fun (last, ids) => (last, id :: ids)

section Connecting

variable {graph : Graph} {source target : Nat} {relation : Relation}

/-- A relation that is not known is added under the next number. -/
theorem connect_of_fresh (attributes : Attributes) (sourceThere : (graph.key? source).isSome)
    (targetThere : (graph.key? target).isSome)
    (fresh : graph.edgeIndex[(⟨source, target, relation⟩ : EdgeKey)]? = none) :
    graph.connect source target relation attributes =
      .ok (graph.addEdge ⟨source, target, relation⟩ attributes, graph.nextEdge) := by
  obtain ⟨sourceNode, foundSource⟩ := isSome_key?_iff.mp sourceThere
  obtain ⟨targetNode, foundTarget⟩ := isSome_key?_iff.mp targetThere
  simp [connect, Graph.node, foundSource, foundTarget, fresh, bind, Except.bind, pure, Except.pure]

/-- A relation that is known absorbs the attributes and keeps its number. -/
theorem connect_of_known (attributes : Attributes) (sourceThere : (graph.key? source).isSome)
    (targetThere : (graph.key? target).isSome) {id : Nat}
    (known : graph.edgeIndex[(⟨source, target, relation⟩ : EdgeKey)]? = some id) :
    graph.connect source target relation attributes = .ok (graph.absorbing id attributes, id) := by
  obtain ⟨sourceNode, foundSource⟩ := isSome_key?_iff.mp sourceThere
  obtain ⟨targetNode, foundTarget⟩ := isSome_key?_iff.mp targetThere
  simp [connect, Graph.node, foundSource, foundTarget, known, absorbing, bind, Except.bind, pure,
    Except.pure]

/-- A new edge that absorbs attributes is a new edge with these attributes absorbed. -/
theorem absorbing_addEdge (graph : Graph) (key : EdgeKey) (attributes more : Attributes) :
    (graph.addEdge key attributes).absorbing graph.nextEdge more =
      graph.addEdge key (attributes.absorb more) := by
  have table : ((graph.addEdge key attributes).absorbing graph.nextEdge more).edgeTable =
      (graph.addEdge key (attributes.absorb more)).edgeTable := by
    refine Std.ExtTreeMap.ext_getElem? fun id => ?_
    rw [edgeTable_absorbing, edgeTable_addEdge, edgeTable_addEdge]
    by_cases itself : graph.nextEdge = id <;> simp [itself]
  unfold absorbing at table ⊢
  exact congrArg (fun edgeTable =>
    { graph.addEdge key (attributes.absorb more) with edgeTable }) table

/-- Each further request finds the edge that the first one created. -/
theorem connectEach_addEdge (sourceThere : (graph.key? source).isSome)
    (targetThere : (graph.key? target).isSome) (first : Attributes) (rest : List Attributes) :
    (graph.addEdge ⟨source, target, relation⟩ first).connectEach source target relation rest =
      .ok (graph.addEdge ⟨source, target, relation⟩ (rest.foldl Attributes.absorb first),
        List.replicate rest.length graph.nextEdge) := by
  induction rest generalizing first with
  | nil => rfl
  | cons next rest further =>
    have known : (graph.addEdge ⟨source, target, relation⟩ first).edgeIndex[
        (⟨source, target, relation⟩ : EdgeKey)]? = some graph.nextEdge := by
      simp [addEdge]
    have sourceStays : ((graph.addEdge ⟨source, target, relation⟩ first).key? source).isSome :=
      sourceThere
    have joined := connect_of_known next sourceStays targetThere known
    rw [absorbing_addEdge] at joined
    simp only [connectEach, joined, further, Except.map, List.foldl_cons, List.length_cons,
      List.replicate_succ]

end Connecting

/-- A new edge is listed behind all others. -/
theorem Sound.edges_addEdge {graph : Graph} (sound : graph.Sound) {key : EdgeKey}
    {attributes : Attributes} (fresh : graph.edgeIndex[key]? = none)
    (sourceThere : (graph.key? key.source).isSome)
    (targetThere : (graph.key? key.target).isSome) :
    (graph.addEdge key attributes).edges =
      graph.edges ++ [⟨graph.nextEdge, key.source, key.target, key.relation, attributes⟩] := by
  have after : (graph.addEdge key attributes).Sound :=
    sound.addEdge fresh sourceThere targetThere
  refine eq_of_increasing (·.id) after.edges_increasing ?_ fun edge => ?_
  · rw [List.map_append, List.pairwise_append]
    refine ⟨sound.edges_increasing, by simp, ?_⟩
    intro number listed last isLast
    obtain ⟨edge, there, rfl⟩ := List.mem_map.mp listed
    cases List.mem_singleton.mp isLast
    exact sound.edge_lt (sound.mem_edges.mp there)
  · rw [after.mem_edges, edgeTable_addEdge, List.mem_append, sound.mem_edges, List.mem_singleton]
    by_cases itself : graph.nextEdge = edge.id
    · have free : graph.edgeTable[edge.id]? = none := by
        simpa [edgeKey?, itself] using sound.edgeKey?_nextEdge
      rw [if_pos itself, Option.some_inj, free]
      simp [eq_comm]
    · rw [if_neg itself]
      refine (or_iff_left ?_).symm
      rintro rfl
      exact itself rfl

/-- Whatever was asked of a graph before: two nodes without an edge of a relation are related once
for each of some maps of increasing lists. In whatever order the maps come, every request succeeds
and gives the number of one and the same new edge, which gathers all maps; the nodes and all other
edges stay as they were. -/
theorem connectEach_gathers (changes : List Change) {source target : Nat} {relation : Relation}
    {given : List Attributes} (sourceThere : source ∈ (afterChanges changes).nodes.map (·.id))
    (targetThere : target ∈ (afterChanges changes).nodes.map (·.id))
    (unrelated : ∀ edge ∈ (afterChanges changes).edges, edge.key ≠ ⟨source, target, relation⟩)
    (someGiven : given ≠ []) (fits : Attributes.ListsAlike given) :
    ∃ grown attributes, Attributes.Gathers given attributes ∧
      (∀ order, order.Perm given →
        (afterChanges changes).connectEach source target relation order =
          .ok (grown, List.replicate given.length (afterChanges changes).nextEdge)) ∧
      grown.nodes = (afterChanges changes).nodes ∧
      grown.edges = (afterChanges changes).edges ++
        [⟨(afterChanges changes).nextEdge, source, target, relation, attributes⟩] ∧
      grown.ReadsAsScans := by
  have sound := sound_afterChanges changes
  generalize afterChanges changes = graph at *
  have sourceKnown := sound.mem_ids.mp sourceThere
  have targetKnown := sound.mem_ids.mp targetThere
  have fresh : graph.edgeIndex[(⟨source, target, relation⟩ : EdgeKey)]? = none := by
    refine Option.eq_none_iff_forall_ne_some.mpr fun id known => ?_
    obtain ⟨edge, found, same⟩ := edgeKey?_eq_some.mp (sound.edgeIndex_iff.mp known)
    have own := sound.edge_id found
    exact unrelated edge (sound.mem_edges.mpr (by rwa [own])) same
  obtain ⟨first, rest, rfl⟩ := List.exists_cons_of_ne_nil someGiven
  have gathers := Attributes.gathers_foldl_absorb fits
  refine ⟨graph.addEdge ⟨source, target, relation⟩ (rest.foldl Attributes.absorb first), _, gathers,
    fun order perm => ?_, rfl, sound.edges_addEdge fresh sourceKnown targetKnown,
    (sound.addEdge fresh sourceKnown targetKnown).readsAsScans⟩
  obtain ⟨head, tail, rfl⟩ := List.exists_cons_of_ne_nil
    (show order ≠ [] from fun nothing => by simp [nothing] at perm)
  have joined := connect_of_fresh head sourceKnown targetKnown fresh
  have reordered := Attributes.gathers_foldl_absorb (fits.perm perm)
  rw [connectEach, joined]
  simp only [connectEach_addEdge sourceKnown targetKnown, Except.map,
    reordered.eq_of_perm gathers perm, ← perm.length_eq, List.length_cons, List.replicate_succ]

/-- What is said of calls on some lines. -/
def callsOn (lines : List Int64) : Attributes :=
  (∅ : Attributes).insert AttributeName.callLines (.ints lines)

/-- A graph of two functions. -/
def twoFunctions : List Change :=
  [.insert (.callable ⟨["run"]⟩ "()") .freeFunction ∅,
   .insert (.callable ⟨["area"]⟩ "()") .freeFunction ∅]

/-- The lists of lines on three edges are alike. -/
theorem listsAlike_callsOn : Attributes.ListsAlike [callsOn [12], callsOn [4, 12], callsOn [7]] where
  lists := by
    intro attributes listed key value held
    simp only [List.mem_cons, List.not_mem_nil, or_false] at listed
    rcases listed with rfl | rfl | rfl
    all_goals
      simp only [callsOn, Std.ExtTreeMap.getElem?_insert, Std.ExtTreeMap.getElem?_empty,
        Option.ite_none_right_eq_some, Option.some.injEq] at held
      obtain ⟨-, rfl⟩ := held
      simp only [Value.IsIncreasingList]
      decide
  alike := by
    intro one listed other _ key texts numbers held
    simp only [List.mem_cons, List.not_mem_nil, or_false] at listed
    rcases listed with rfl | rfl | rfl
    all_goals simp [callsOn, Std.ExtTreeMap.getElem?_insert] at held

/-- One function calls the other on several lines, of which one is told twice. -/
theorem connectEach_gathers_calls :
    1 ∈ (afterChanges twoFunctions).nodes.map (·.id) ∧
      2 ∈ (afterChanges twoFunctions).nodes.map (·.id) ∧
      (∀ edge ∈ (afterChanges twoFunctions).edges, edge.key ≠ ⟨1, 2, .calls⟩) ∧
      ∃ grown attributes,
        Attributes.Gathers [callsOn [12], callsOn [4, 12], callsOn [7]] attributes ∧
        (∀ order, order.Perm [callsOn [12], callsOn [4, 12], callsOn [7]] →
          (afterChanges twoFunctions).connectEach 1 2 .calls order =
            .ok (grown, List.replicate 3 (afterChanges twoFunctions).nextEdge)) ∧
        grown.nodes = (afterChanges twoFunctions).nodes ∧
        grown.edges = (afterChanges twoFunctions).edges ++
          [⟨(afterChanges twoFunctions).nextEdge, 1, 2, .calls, attributes⟩] ∧
        grown.ReadsAsScans := by
  have ids : (afterChanges twoFunctions).nodes.map (·.id) = [0, 1, 2] := rfl
  have bare : (afterChanges twoFunctions).edges = [] := rfl
  have caller : 1 ∈ (afterChanges twoFunctions).nodes.map (·.id) := by simp [ids]
  have callee : 2 ∈ (afterChanges twoFunctions).nodes.map (·.id) := by simp [ids]
  have unrelated : ∀ edge ∈ (afterChanges twoFunctions).edges,
      edge.key ≠ ⟨1, 2, .calls⟩ := by simp [bare]
  exact ⟨caller, callee, unrelated,
    connectEach_gathers twoFunctions caller callee unrelated (by simp) listsAlike_callsOn⟩

end Graph

end DeclGraph
