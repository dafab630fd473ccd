import DeclGraph.Catalogue.Basic

/-!
# Merging mentions

The first mention of an entity creates its node, every further one is merged
into it. Of two mentions one speaks for the entity: a definition before a
declaration, then the one from the earlier file. The other fills in what the
first leaves open, so that the outcome does not depend on the order in which
units are merged.
-/

namespace DeclGraph

/-- Whether a mention can speak of an entity that is known under the same name.
Families must agree, and a namespace is no record; a scope that is only implied
may turn out to be either. -/
def compatible (existing : EntityKey) (existingKind : EntityKind) (existingImplied : Bool)
    (incoming : Mention) : Bool :=
  if existing.family = .placeholder ∨ incoming.key.family = .placeholder then true
  else if existing.family ≠ incoming.key.family then false
  else if existing.family = .scope ∧ existingImplied = false ∧ incoming.implied = false then
    (existingKind = .namespaceScope : Bool) == (incoming.kind = .namespaceScope : Bool)
  else true

/-- A mention that contradicts what is known. -/
structure Conflict where
  name : ScopedName
  existing : EntityKind
  incoming : EntityKind
deriving DecidableEq, Repr

/-- Whether a mention speaks for the entity rather than what is known of it. -/
def incomingWins (existing : Node) (mention : Mention) : Bool :=
  if mention.isDefinition ≠ existing.attributes.isSet AttributeName.isDefinition then
    mention.isDefinition
  else
    match existing.attributes.text? AttributeName.sourceFile,
        mention.attributes.text? AttributeName.sourceFile with
    | some old, some new => compare new old != .gt
    | none, some _ => true
    | _, none => false

/-- Fills one attribute of the losing side into those of the winning side. A
shared list is added to, anything else only fills a gap. -/
def fillEntry (winner : Attributes) (key : String) (value : Value) : Attributes :=
  if AttributeName.shared.contains key then
    match value with
    | .texts values => winner.unionTexts key values
    | _ => winner
  else winner.insertIfNew key value

/-- The attributes of two mentions together. A scope stays implied only while
both sides know it from qualifiers. -/
def mergedAttributes (existing incoming : Attributes) (incomingWins : Bool) : Attributes :=
  let filled :=
    if incomingWins then existing.foldl fillEntry incoming
    else incoming.foldl fillEntry existing
  if existing.isSet AttributeName.implied && incoming.isSet AttributeName.implied then
    filled.insert AttributeName.implied (.flag true)
  else filled.erase AttributeName.implied

/-- The kind of two mentions together. -/
def mergedKind (existing : Node) (mention : Mention) (incomingWins : Bool) : EntityKind :=
  match existing.key.family with
  | .scope =>
    if existing.attributes.isSet AttributeName.implied && !mention.implied then mention.kind
    else if mention.implied || !incomingWins then existing.kind
    else mention.kind
  | .callable =>
    if mention.kind = .freeFunction then existing.kind
    else if existing.kind = .freeFunction then mention.kind
    else if incomingWins then mention.kind
    else existing.kind
  | .typeAlias | .field | .placeholder => existing.kind

namespace Catalogue

/-- The nodes of the mentioned name. -/
def namesakes (catalogue : Catalogue) (mention : Mention) : List Node :=
  (catalogue.graph.nodesNamed mention.key.name).filterMap (catalogue.graph.nodeTable[·]?)

/-- The first contradiction between a mention and the nodes of its name. -/
def conflict? (catalogue : Catalogue) (mention : Mention) : Option Conflict :=
  ((catalogue.namesakes mention).find? fun node =>
    !compatible node.key node.kind (node.attributes.isSet AttributeName.implied) mention).map
    fun node => ⟨mention.key.name, node.kind, mention.kind⟩

/-- The attributes with which the first mention of an entity is kept. -/
def initialAttributes (mention : Mention) : Attributes :=
  if mention.implied then mention.attributes.insert AttributeName.implied (.flag true)
  else mention.attributes

/-- Creates the node of a first mention and puts it into its scope. A stand-in
lies in no scope. -/
def create (mention : Mention) : Action Nat := do
  let id ← Action.changing fun graph =>
    graph.insert mention.key mention.kind (initialAttributes mention)
  if mention.key.family ≠ .placeholder then
    let scope ← ensureEnclosing mention.key.name
    attach scope id
  return id

/-- Merges a further mention into a node. -/
def mergeInto (id : Nat) (mention : Mention) : Action Nat := do
  let existing ← Action.reading fun graph => graph.node id
  let wins := incomingWins existing mention
  let attributes := mergedAttributes existing.attributes mention.attributes wins
  let kind := mergedKind existing mention wins
  Action.editing fun graph => graph.setAttributes id attributes
  if kind ≠ existing.kind then
    Action.editing fun graph => graph.setKind id kind
  return id

/-- Registers a mention and gives the node of its entity. -/
def register (mention : Mention) : Action Nat := do
  match (← get).graph.nodeByKey? mention.key with
  | some id => mergeInto id mention
  | none => create mention

end Catalogue

end DeclGraph
