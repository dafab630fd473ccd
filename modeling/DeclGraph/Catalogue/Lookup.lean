import DeclGraph.Catalogue.Basic
import DeclGraph.Spelling.Template

/-!
# Name lookup

A spelled name is looked up from a scope. The first component of the name is
searched in the scope and then in one scope after the other around it; the
further components are searched in what was found before. A record shows the
members of its bases where it has none of its own, nearest bases first. A unit
sees the members of its own unnamed namespaces, and the namespaces opened by
its directives. Each search is bounded by the size of the graph, which no
search without repeats exceeds.
-/

namespace DeclGraph

/-- The unit on whose behalf a name is looked up, with its directives. -/
structure Viewpoint where
  unit : FilePath
  directives : List Directive
deriving DecidableEq, Repr

namespace Catalogue

variable (catalogue : Catalogue)

/-- Whether a use of a type says what an alias stands for. -/
def isAliasEdge (edge : Edge) : Bool :=
  ((edge.attributes.texts? AttributeName.roles).getD []).contains "alias"

/-- The node an alias stands for directly. -/
def aliasTarget? (node : Nat) : Option Nat :=
  ((catalogue.graph.outgoing node (some .usesType)).find? isAliasEdge).map (·.target)

/-- Follows aliases for at most `steps` steps and stops at an alias passed
before. -/
def followAliases : Nat → List Nat → Nat → Nat
  | 0, _, node => node
  | steps + 1, passed, node =>
    if catalogue.kind? node = some .typeAlias ∧ passed.contains node = false then
      match catalogue.aliasTarget? node with
      | some target => followAliases steps (node :: passed) target
      | none => node
    else node

/-- What an alias stands for in the end, and any other node itself. -/
def dealias (node : Nat) : Nat :=
  catalogue.followAliases catalogue.graph.nodeCount [] node

/-- The accepted members of a scope that have a name. Where there is none, the
members of the unit's unnamed namespaces in the scope are searched, `depth`
levels deep. -/
def directMembers (unit : Option FilePath) (accept : Node → Bool) (name : String) :
    Nat → Nat → List Nat
  | 0, _ => []
  | depth + 1, scope =>
    let found := (catalogue.membersNamed scope name).filter fun id =>
      catalogue.graph.nodeTable[id]?.any accept
    if found.isEmpty then
      match unit with
      | none => []
      | some path =>
        (catalogue.membersNamed scope path.unnamedNamespace).flatMap
          (directMembers unit accept name depth)
    else found

/-- The accepted members of a scope itself, unnamed namespaces included. -/
def ownMembers (unit : Option FilePath) (accept : Node → Bool) (name : String) (scope : Nat) :
    List Nat :=
  catalogue.directMembers unit accept name catalogue.graph.nodeCount scope

/-- Searches the records of a queue, and behind each of them its bases, until
one has accepted members. `steps` bounds the search. -/
def searchBases (unit : Option FilePath) (accept : Node → Bool) (name : String) :
    Nat → List Nat → List Nat → List Nat
  | 0, _, _ => []
  | _ + 1, _, [] => []
  | steps + 1, passed, record :: queue =>
    if passed.contains record then searchBases unit accept name steps passed queue
    else
      let found := catalogue.ownMembers unit accept name record
      if found.isEmpty then
        searchBases unit accept name steps (record :: passed) (queue ++ catalogue.bases record)
      else found

/-- The accepted members of a scope, or those of its nearest base that has
any. -/
def visibleMembers (unit : Option FilePath) (accept : Node → Bool) (name : String) (scope : Nat) :
    List Nat :=
  let found := catalogue.ownMembers unit accept name scope
  if found.isEmpty && catalogue.isRecord scope then
    catalogue.searchBases unit accept name (catalogue.graph.edgeCount + 1) [scope]
      (catalogue.bases scope)
  else found

/-- Searches a scope and the namespaces opened in it, then one scope after the
other around it, `steps` scopes far. -/
def searchOutward (unit : Option FilePath) (opened : Nat → List Nat) (accept : Node → Bool)
    (name : String) : Nat → Nat → List Nat
  | 0, _ => []
  | steps + 1, scope =>
    let inScope := catalogue.visibleMembers unit accept name scope
    let found :=
      if inScope.isEmpty then
        distinct ((opened scope).flatMap (catalogue.visibleMembers unit accept name))
      else inScope
    if found.isEmpty then
      match catalogue.graph.parent? scope with
      | some outer => searchOutward unit opened accept name steps outer
      | none => []
    else found

/-- What an unqualified name means in a scope. -/
def unqualified (unit : Option FilePath) (opened : Nat → List Nat) (accept : Node → Bool)
    (name : String) (scope : Nat) : List Nat :=
  catalogue.searchOutward unit opened accept name (catalogue.graph.nodeCount + 1) scope

/-- Whether names can be looked up in a node. -/
def hasMembers (node : Node) : Bool :=
  node.kind = .namespaceScope || node.kind.isRecord || node.kind = .typeAlias

/-- Searches one name after the other, each in everything the one before means. -/
def descend (unit : Option FilePath) : List Nat → List String → List Nat
  | scopes, [] => scopes
  | scopes, name :: names =>
    descend unit
      (scopes.flatMap fun scope =>
        catalogue.visibleMembers unit hasMembers name (catalogue.dealias scope)) names

/-- What a spelled name means in a scope, when `opened` lists the namespaces
opened in each scope. A leading `::` starts at the global namespace. -/
def resolveWith (unit : Option FilePath) (opened : Nat → List Nat) (accept : Node → Bool)
    (spelling : String) (scope : Nat) : List Nat :=
  let plain := Spelling.withoutArguments spelling
  let first (accept : Node → Bool) (name : String) : List Nat :=
    if [':', ':'].isPrefixOf plain.toList then
      catalogue.visibleMembers unit accept name Graph.root
    else catalogue.unqualified unit opened accept name scope
  match (ScopedName.ofSpelling plain).segments with
  | [] => []
  | [name] => first accept name
  | name :: further =>
    let scopes := catalogue.descend unit (first hasMembers name) further.dropLast
    distinct (scopes.flatMap fun scope =>
      catalogue.visibleMembers unit accept (further.getLastD "") (catalogue.dealias scope))

/-- Whether a node is a namespace. -/
def isNamespace (node : Node) : Bool := node.kind = .namespaceScope

/-- What the name in a directive means in a scope. Directives do not help to
look up each other. -/
def openedBy (unit : FilePath) (directive : Directive) (scope : Nat) : List Nat :=
  catalogue.resolveWith (some unit) (fun _ => []) isNamespace directive.opened scope

/-- The namespaces that the directives written in a scope open there. -/
def openedIn (viewpoint : Viewpoint) (scope : Nat) : List Nat :=
  match catalogue.graph.nodeTable[scope]? with
  | none => []
  | some node =>
    let here := viewpoint.directives.filter fun directive => directive.scope = node.key.name
    distinct ((here.flatMap fun directive =>
      catalogue.openedBy viewpoint.unit directive scope).filter (· ≠ scope))

/-- What a spelled name means in a scope, seen from nowhere in particular. -/
def resolve (accept : Node → Bool) (spelling : String) (scope : Nat) : List Nat :=
  catalogue.resolveWith none (fun _ => []) accept spelling scope

/-- What a spelled name means in a scope, seen from a unit. -/
def resolveFrom (viewpoint : Viewpoint) (accept : Node → Bool) (spelling : String)
    (scope : Nat) : List Nat :=
  catalogue.resolveWith (some viewpoint.unit) (catalogue.openedIn viewpoint) accept
    spelling scope

/-- The accepted members of a scope or of its nearest base, unnamed namespaces
left out. -/
def lookupMember (accept : Node → Bool) (name : String) (scope : Nat) : List Nat :=
  catalogue.visibleMembers none accept name scope

end Catalogue

end DeclGraph
