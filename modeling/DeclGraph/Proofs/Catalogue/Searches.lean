import DeclGraph.Proofs.Catalogue.Detaching
import DeclGraph.Proofs.Catalogue.Spelled
import Mathlib.Logic.Relator

/-!
# The searches of a lookup

The searches that a lookup is made of are told here by rules without a bound. A search that
does not end has no result by them, and one that ends has one result.

The rules do what the searches do, and their premises say besides what brings a search closer to
its end: unnamed namespaces lie deeper than the scope in which they are searched, a base or an
alias was not passed before, and the scopes around a node lie less and less deep, up to the
global namespace. Names in directives are looked up within a lookup; how far lookups lie within
each other is counted.
-/

namespace DeclGraph

namespace Catalogue

section Rules

variable (catalogue : Catalogue) (unit : Option FilePath) (accept : Node → Bool) (name : String)

/-- The accepted members of a scope that have a name. -/
def acceptedNamed (scope : Nat) : List Nat :=
  (catalogue.membersNamed scope name).filter fun id => catalogue.graph.nodeTable[id]?.any accept

/-- The search of a scope itself. Where it shows nothing, the search goes on in the unnamed
namespaces of the unit that lie in the scope. -/
inductive MembersSearch : Nat → List Nat → Prop where
  | here {scope : Nat} (shown : catalogue.acceptedNamed accept name scope ≠ []) :
    MembersSearch scope (catalogue.acceptedNamed accept name scope)
  | nobody {scope : Nat} (nothing : catalogue.acceptedNamed accept name scope = [])
    (noUnit : unit = none) : MembersSearch scope []
  | unnamed {scope : Nat} {path : FilePath} {found : Nat → List Nat}
    (nothing : catalogue.acceptedNamed accept name scope = []) (ofUnit : unit = some path)
    (lies : ∀ inner ∈ catalogue.membersNamed scope path.unnamedNamespace,
      catalogue.graph.parent? inner = some scope)
    (deeper : ∀ inner ∈ catalogue.membersNamed scope path.unnamedNamespace,
      depth catalogue.graph scope < depth catalogue.graph inner)
    (each : ∀ inner ∈ catalogue.membersNamed scope path.unnamedNamespace,
      MembersSearch inner (found inner)) :
    MembersSearch scope ((catalogue.membersNamed scope path.unnamedNamespace).flatMap found)

/-- The search of the records that wait in a queue, when some were searched before. The third
list holds the records that are searched from here on. -/
inductive BasesSearch : List Nat → List Nat → List Nat → List Nat → Prop where
  | exhausted {passed : List Nat} : BasesSearch passed [] [] []
  | again {record : Nat} {passed queue searched found : List Nat} (known : record ∈ passed)
    (further : BasesSearch passed queue searched found) :
    BasesSearch passed (record :: queue) searched found
  | here {record : Nat} {passed queue found : List Nat} (new : record ∉ passed)
    (members : catalogue.MembersSearch unit accept name record found) (shown : found ≠ []) :
    BasesSearch passed (record :: queue) [record] found
  | behind {record : Nat} {passed queue searched found : List Nat} (new : record ∉ passed)
    (members : catalogue.MembersSearch unit accept name record [])
    (further : BasesSearch (record :: passed) (queue ++ catalogue.bases record) searched found) :
    BasesSearch passed (record :: queue) (record :: searched) found

/-- The search of a scope and, if it is a record that shows nothing, of its bases. No record is
searched twice. -/
inductive VisibleSearch (scope : Nat) : List Nat → Prop where
  | own {found : List Nat} (members : catalogue.MembersSearch unit accept name scope found)
    (last : found ≠ [] ∨ catalogue.isRecord scope = false) : VisibleSearch scope found
  | inherited {searched found : List Nat}
    (members : catalogue.MembersSearch unit accept name scope [])
    (isRecord : catalogue.isRecord scope = true)
    (bases : catalogue.BasesSearch unit accept name [scope] (catalogue.bases scope) searched found)
    (once : (scope :: searched).Nodup) : VisibleSearch scope found

/-- Following aliases from a node, when some were passed before. The second list holds the
aliases that are passed from here on. -/
inductive AliasChase : List Nat → Nat → List Nat → Nat → Prop where
  | concrete {passed : List Nat} {id : Nat} (other : catalogue.kind? id ≠ some .typeAlias) :
    AliasChase passed id [] id
  | again {passed : List Nat} {id : Nat} (isAlias : catalogue.kind? id = some .typeAlias)
    (known : id ∈ passed) : AliasChase passed id [] id
  | nowhere {passed : List Nat} {id : Nat} (isAlias : catalogue.kind? id = some .typeAlias)
    (new : id ∉ passed) (nothing : catalogue.aliasTarget? id = none) :
    AliasChase passed id [id] id
  | further {passed followed : List Nat} {id target last : Nat}
    (isAlias : catalogue.kind? id = some .typeAlias) (new : id ∉ passed)
    (stands : catalogue.aliasTarget? id = some target)
    (rest : AliasChase (id :: passed) target followed last) :
    AliasChase passed id (id :: followed) last

/-- Following aliases from a node to the last one. No alias is passed twice. -/
inductive Dealiasing (id last : Nat) : Prop where
  | intro {followed : List Nat} (chase : catalogue.AliasChase [] id followed last)
    (once : followed.Nodup)

/-- The search of what a node stands for in the end. -/
inductive DealiasedSearch (id : Nat) : List Nat → Prop where
  | intro {last : Nat} {found : List Nat} (dealiasing : catalogue.Dealiasing id last)
    (visible : catalogue.VisibleSearch unit accept name last found) : DealiasedSearch id found

variable (opens : Nat → List Nat → Prop)

/-- The search of a scope and, where it shows nothing, of the namespaces opened in it. -/
inductive PlaceSearch (scope : Nat) : List Nat → Prop where
  | own {found : List Nat} (visible : catalogue.VisibleSearch unit accept name scope found)
    (shown : found ≠ []) : PlaceSearch scope found
  | opened {namespaces : List Nat} {found : Nat → List Nat}
    (visible : catalogue.VisibleSearch unit accept name scope []) (opened : opens scope namespaces)
    (each : ∀ inner ∈ namespaces, catalogue.VisibleSearch unit accept name inner (found inner)) :
    PlaceSearch scope (distinct (namespaces.flatMap found))

/-- The search of one scope after the other, each in the next one. It ends at the global
namespace, which lies in no other. -/
inductive OutwardSearch : Nat → List Nat → Prop where
  | here {scope : Nat} {found : List Nat}
    (place : catalogue.PlaceSearch unit accept name opens scope found) (shown : found ≠ []) :
    OutwardSearch scope found
  | outermost (place : catalogue.PlaceSearch unit accept name opens Graph.root [])
    (alone : catalogue.graph.parent? Graph.root = none) : OutwardSearch Graph.root []
  | around {scope outer : Nat} {found : List Nat}
    (place : catalogue.PlaceSearch unit accept name opens scope [])
    (lies : catalogue.graph.parent? scope = some outer)
    (shallower : depth catalogue.graph outer < depth catalogue.graph scope)
    (further : OutwardSearch outer found) : OutwardSearch scope found

/-- Whether a number is that of a node other than a stand-in. -/
def IsDeclared (id : Nat) : Prop :=
  ∃ key, catalogue.graph.key? id = some key ∧ key.family ≠ .placeholder

/-- The search for an unqualified name. It goes outward from a declared node; anything else lies
in no scope, and is the only place that is searched. -/
inductive UnqualifiedSearch (scope : Nat) : List Nat → Prop where
  | declared {found : List Nat} (isDeclared : catalogue.IsDeclared scope)
    (outward : catalogue.OutwardSearch unit accept name opens scope found) :
    UnqualifiedSearch scope found
  | astray {found : List Nat} (stray : ¬ catalogue.IsDeclared scope)
    (alone : catalogue.graph.parent? scope = none)
    (place : catalogue.PlaceSearch unit accept name opens scope found) :
    UnqualifiedSearch scope found

/-- The search for the first component of a spelling. -/
inductive FirstSearch (rooted : Bool) (scope : Nat) : List Nat → Prop where
  | global {found : List Nat} (isRooted : rooted = true)
    (visible : catalogue.VisibleSearch unit accept name Graph.root found) :
    FirstSearch rooted scope found
  | relative {found : List Nat} (notRooted : rooted = false)
    (unqualified : catalogue.UnqualifiedSearch unit accept name opens scope found) :
    FirstSearch rooted scope found

/-- The search for one name after the other, each in everything that the one before means. -/
inductive Descent : List Nat → List String → List Nat → Prop where
  | done {scopes : List Nat} : Descent scopes [] scopes
  | next {scopes last : List Nat} {name : String} {names : List String} {found : Nat → List Nat}
    (each : ∀ id ∈ scopes, catalogue.DealiasedSearch unit hasMembers name id (found id))
    (further : Descent (scopes.flatMap found) names last) : Descent scopes (name :: names) last

/-- Whether a spelling starts at the global namespace. -/
def startsAtRoot (spelling : String) : Bool :=
  [':', ':'].isPrefixOf (Spelling.withoutArguments spelling).toList

/-- The lookup of a spelled name. -/
inductive Lookup (spelling : String) (scope : Nat) : List Nat → Prop where
  | nameless (nothing : Spelling.components spelling = []) : Lookup spelling scope []
  | simple {first : String} {found : List Nat} (single : Spelling.components spelling = [first])
    (search : catalogue.FirstSearch unit accept first opens (startsAtRoot spelling) scope found) :
    Lookup spelling scope found
  | qualified {first second : String} {further : List String} {scopes inner : List Nat}
    {found : Nat → List Nat}
    (several : Spelling.components spelling = first :: second :: further)
    (search : catalogue.FirstSearch unit hasMembers first opens (startsAtRoot spelling) scope
      scopes)
    (descent : catalogue.Descent unit scopes (second :: further).dropLast inner)
    (last : ∀ id ∈ inner, catalogue.DealiasedSearch unit accept
      ((second :: further).getLastD "") id (found id)) :
    Lookup spelling scope (distinct (inner.flatMap found))

/-- The search for the namespaces that a viewpoint opens in a scope, when `means` looks names of
namespaces up. A viewpoint without directives looks up nothing, and it is from there that the
names in directives are looked up. -/
inductive Opening (means : Viewpoint → String → Nat → List Nat → Prop) :
    Option Viewpoint → Nat → List Nat → Prop where
  | nobody {scope : Nat} : Opening means none scope []
  | undirected {viewpoint : Viewpoint} {scope : Nat} (nothing : viewpoint.directives = []) :
    Opening means (some viewpoint) scope []
  | missing {viewpoint : Viewpoint} {scope : Nat} (directed : viewpoint.directives ≠ [])
    (missing : catalogue.graph.nodeTable[scope]? = none) : Opening means (some viewpoint) scope []
  | directed {viewpoint : Viewpoint} {scope : Nat} {node : Node} {found : Directive → List Nat}
    (directed : viewpoint.directives ≠ [])
    (there : catalogue.graph.nodeTable[scope]? = some node)
    (each : ∀ directive ∈ viewpoint.directives.filter (·.scope = node.key.name),
      means ⟨viewpoint.unit, []⟩ directive.opened scope (found directive)) :
    Opening means (some viewpoint) scope (distinct
      (((viewpoint.directives.filter (·.scope = node.key.name)).flatMap found).filter (· ≠ scope)))

/-- The lookup of a spelled name from a viewpoint, with lookups of the names in directives within
it down to so many levels. -/
def LookupWithin : Nat → Option Viewpoint → (Node → Bool) → String → Nat → List Nat → Prop
  | 0, viewpoint, accept =>
    catalogue.Lookup (viewpoint.map (·.unit)) accept
      (catalogue.Opening (fun _ _ _ _ => False) viewpoint)
  | levels + 1, viewpoint, accept =>
    catalogue.Lookup (viewpoint.map (·.unit)) accept
      (catalogue.Opening (fun bare => LookupWithin levels (some bare) isNamespace) viewpoint)

end Rules

section Single

variable {catalogue : Catalogue} {unit : Option FilePath} {accept : Node → Bool} {name : String}
  {scope : Nat} {found other : List Nat}

/-- A search for members ends with one result. -/
theorem MembersSearch.unique (first : catalogue.MembersSearch unit accept name scope found)
    (second : catalogue.MembersSearch unit accept name scope other) : found = other := by
  induction first generalizing other with
  | here shown =>
    cases second with
    | here _ => rfl
    | nobody nothing _ => exact absurd nothing shown
    | unnamed nothing _ _ _ _ => exact absurd nothing shown
  | nobody nothing noUnit =>
    cases second with
    | here shown => exact absurd nothing shown
    | nobody _ _ => rfl
    | unnamed _ ofUnit _ _ _ => exact absurd (noUnit.symm.trans ofUnit) nofun
  | unnamed nothing ofUnit _ _ _ deeper =>
    cases second with
    | here shown => exact absurd nothing shown
    | nobody _ noUnit => exact absurd (noUnit.symm.trans ofUnit) nofun
    | unnamed _ ofUnitToo _ _ each =>
      obtain rfl := Option.some.inj (ofUnit.symm.trans ofUnitToo)
      exact List.flatMap_congr fun inner member => deeper inner member (each inner member)

/-- A search through bases ends with one result. -/
theorem BasesSearch.unique {passed queue searched searchedToo : List Nat}
    (first : catalogue.BasesSearch unit accept name passed queue searched found)
    (second : catalogue.BasesSearch unit accept name passed queue searchedToo other) :
    found = other := by
  induction first generalizing searchedToo with
  | exhausted =>
    cases second with
    | exhausted => rfl
  | again known _ further =>
    cases second with
    | again _ rest => exact further rest
    | here new _ _ => exact absurd known new
    | behind new _ _ => exact absurd known new
  | here new members shown =>
    cases second with
    | again known _ => exact absurd known new
    | here _ membersToo _ => exact members.unique membersToo
    | behind _ nothing _ => exact absurd (members.unique nothing) shown
  | behind new members _ further =>
    cases second with
    | again known _ => exact absurd known new
    | here _ membersToo shown => exact absurd (membersToo.unique members) shown
    | behind _ _ rest => exact further rest

/-- A search for what is visible ends with one result. -/
theorem VisibleSearch.unique (first : catalogue.VisibleSearch unit accept name scope found)
    (second : catalogue.VisibleSearch unit accept name scope other) : found = other := by
  -- What is searched further shows nothing itself and is a record.
  have apart : ∀ {own : List Nat}, catalogue.MembersSearch unit accept name scope own →
      (own ≠ [] ∨ catalogue.isRecord scope = false) →
      catalogue.MembersSearch unit accept name scope [] →
      catalogue.isRecord scope = true → False := by
    intro own members last nothing isRecord
    rcases last with shown | noRecord
    · exact shown (members.unique nothing)
    · exact absurd (noRecord.symm.trans isRecord) nofun
  cases first with
  | own members last =>
    cases second with
    | own membersToo _ => exact members.unique membersToo
    | inherited nothing isRecord _ _ => exact (apart members last nothing isRecord).elim
  | inherited nothing isRecord bases _ =>
    cases second with
    | own members last => exact (apart members last nothing isRecord).elim
    | inherited _ _ basesToo _ => exact bases.unique basesToo

/-- A chase of aliases ends at one node. -/
theorem AliasChase.unique {passed followed followedToo : List Nat} {id last lastToo : Nat}
    (first : catalogue.AliasChase passed id followed last)
    (second : catalogue.AliasChase passed id followedToo lastToo) : last = lastToo := by
  induction first generalizing followedToo with
  | concrete concrete =>
    cases second with
    | concrete _ => rfl
    | again _ _ => rfl
    | nowhere _ _ _ => rfl
    | further isAlias _ _ _ => exact absurd isAlias concrete
  | again _ known =>
    cases second with
    | concrete _ => rfl
    | again _ _ => rfl
    | nowhere _ _ _ => rfl
    | further _ new _ _ => exact absurd known new
  | nowhere _ _ nothing =>
    cases second with
    | concrete _ => rfl
    | again _ _ => rfl
    | nowhere _ _ _ => rfl
    | further _ _ stands _ => exact absurd (nothing.symm.trans stands) nofun
  | further isAlias new stands _ rest =>
    cases second with
    | concrete concrete => exact absurd isAlias concrete
    | again _ known => exact absurd known new
    | nowhere _ _ nothing => exact absurd (nothing.symm.trans stands) nofun
    | further _ _ standsToo restToo =>
      obtain rfl := Option.some.inj (stands.symm.trans standsToo)
      exact rest restToo

/-- An alias leads to one node. -/
theorem Dealiasing.unique {id last lastToo : Nat} (first : catalogue.Dealiasing id last)
    (second : catalogue.Dealiasing id lastToo) : last = lastToo := by
  obtain ⟨chase, _⟩ := first
  obtain ⟨chaseToo, _⟩ := second
  exact chase.unique chaseToo

/-- A search behind an alias ends with one result. -/
theorem DealiasedSearch.unique {id : Nat}
    (first : catalogue.DealiasedSearch unit accept name id found)
    (second : catalogue.DealiasedSearch unit accept name id other) : found = other := by
  obtain ⟨dealiasing, visible⟩ := first
  obtain ⟨dealiasingToo, visibleToo⟩ := second
  obtain rfl := dealiasing.unique dealiasingToo
  exact visible.unique visibleToo

/-- A descent ends in one list of scopes. -/
theorem Descent.unique {scopes : List Nat} {names : List String}
    (first : catalogue.Descent unit scopes names found)
    (second : catalogue.Descent unit scopes names other) : found = other := by
  induction first with
  | done =>
    cases second with
    | done => rfl
  | next each _ further =>
    cases second with
    | next eachToo rest =>
      rw [List.flatMap_congr fun id member => (eachToo id member).unique (each id member)] at rest
      exact further rest

variable {opens : Nat → List Nat → Prop} (single : Relator.RightUnique opens)

include single

/-- A search in one place of the walk outward ends with one result if one result is opened there. -/
theorem PlaceSearch.unique (first : catalogue.PlaceSearch unit accept name opens scope found)
    (second : catalogue.PlaceSearch unit accept name opens scope other) : found = other := by
  cases first with
  | own visible shown =>
    cases second with
    | own visibleToo _ => exact visible.unique visibleToo
    | opened nothing _ _ => exact absurd (visible.unique nothing) shown
  | opened nothing opened each =>
    cases second with
    | own visible shown => exact absurd (visible.unique nothing) shown
    | opened _ openedToo eachToo =>
      obtain rfl := single opened openedToo
      rw [List.flatMap_congr fun inner member => (each inner member).unique (eachToo inner member)]

/-- A walk outward ends with one result. -/
theorem OutwardSearch.unique (first : catalogue.OutwardSearch unit accept name opens scope found)
    (second : catalogue.OutwardSearch unit accept name opens scope other) : found = other := by
  induction first with
  | here place shown =>
    cases second with
    | here placeToo _ => exact place.unique single placeToo
    | outermost nothing _ => exact absurd (place.unique single nothing) shown
    | around nothing _ _ _ => exact absurd (place.unique single nothing) shown
  | outermost nothing alone =>
    cases second with
    | here place shown => exact absurd (place.unique single nothing) shown
    | outermost _ _ => rfl
    | around _ lies _ _ => exact absurd (alone.symm.trans lies) nofun
  | around nothing lies _ _ further =>
    cases second with
    | here place shown => exact absurd (place.unique single nothing) shown
    | outermost _ alone => exact absurd (alone.symm.trans lies) nofun
    | around _ liesToo _ rest =>
      obtain rfl := Option.some.inj (lies.symm.trans liesToo)
      exact further rest

/-- A search for an unqualified name ends with one result. -/
theorem UnqualifiedSearch.unique
    (first : catalogue.UnqualifiedSearch unit accept name opens scope found)
    (second : catalogue.UnqualifiedSearch unit accept name opens scope other) : found = other := by
  cases first with
  | declared isDeclared outward =>
    cases second with
    | declared _ outwardToo => exact outward.unique single outwardToo
    | astray stray _ _ => exact absurd isDeclared stray
  | astray stray _ place =>
    cases second with
    | declared isDeclared _ => exact absurd isDeclared stray
    | astray _ _ placeToo => exact place.unique single placeToo

/-- A search for the first name of a spelling ends with one result. -/
theorem FirstSearch.unique {rooted : Bool}
    (first : catalogue.FirstSearch unit accept name opens rooted scope found)
    (second : catalogue.FirstSearch unit accept name opens rooted scope other) :
    found = other := by
  cases first with
  | global isRooted visible =>
    cases second with
    | global _ visibleToo => exact visible.unique visibleToo
    | relative notRooted _ => exact absurd (notRooted.symm.trans isRooted) nofun
  | relative notRooted unqualified =>
    cases second with
    | global isRooted _ => exact absurd (notRooted.symm.trans isRooted) nofun
    | relative _ unqualifiedToo => exact unqualified.unique single unqualifiedToo

/-- A lookup ends with one result. -/
theorem Lookup.unique {spelling : String}
    (first : catalogue.Lookup unit accept opens spelling scope found)
    (second : catalogue.Lookup unit accept opens spelling scope other) : found = other := by
  cases first with
  | nameless nothing =>
    cases second with
    | nameless _ => rfl
    | simple components _ => exact absurd (nothing.symm.trans components) nofun
    | qualified components _ _ _ => exact absurd (nothing.symm.trans components) nofun
  | simple components search =>
    cases second with
    | nameless nothing => exact absurd (nothing.symm.trans components) nofun
    | simple componentsToo searchToo =>
      obtain ⟨rfl, _⟩ := List.cons.inj (components.symm.trans componentsToo)
      exact search.unique single searchToo
    | qualified componentsToo _ _ _ => exact absurd (components.symm.trans componentsToo) nofun
  | qualified components search descent last =>
    cases second with
    | nameless nothing => exact absurd (nothing.symm.trans components) nofun
    | simple componentsToo _ => exact absurd (components.symm.trans componentsToo) nofun
    | qualified componentsToo searchToo descentToo lastToo =>
      obtain ⟨rfl, rest⟩ := List.cons.inj (components.symm.trans componentsToo)
      obtain ⟨rfl, rfl⟩ := List.cons.inj rest
      obtain rfl := search.unique single searchToo
      obtain rfl := descent.unique descentToo
      rw [List.flatMap_congr fun id member => (last id member).unique (lastToo id member)]

omit single

/-- The directives of a viewpoint open one list of namespaces where the names that they spell mean
one. -/
theorem Opening.rightUnique {means : Viewpoint → String → Nat → List Nat → Prop}
    (single : ∀ viewpoint spelling, Relator.RightUnique (means viewpoint spelling))
    (viewpoint : Option Viewpoint) : Relator.RightUnique (catalogue.Opening means viewpoint) := by
  intro scope found other first second
  cases first with
  | nobody =>
    cases second with
    | nobody => rfl
  | undirected nothing =>
    cases second with
    | undirected _ => rfl
    | missing _ _ => rfl
    | directed directed _ _ => exact absurd nothing directed
  | missing _ missing =>
    cases second with
    | undirected _ => rfl
    | missing _ _ => rfl
    | directed _ there _ => exact absurd (missing.symm.trans there) nofun
  | directed directed there each =>
    cases second with
    | undirected nothing => exact absurd nothing directed
    | missing _ missing => exact absurd (missing.symm.trans there) nofun
    | directed _ thereToo eachToo =>
      obtain rfl := Option.some.inj (there.symm.trans thereToo)
      rw [List.flatMap_congr fun directive member =>
        single _ _ (each directive member) (eachToo directive member)]

/-- A lookup that ends has one result. -/
theorem LookupWithin.unique {levels : Nat} {viewpoint : Option Viewpoint} {spelling : String}
    (first : catalogue.LookupWithin levels viewpoint accept spelling scope found)
    (second : catalogue.LookupWithin levels viewpoint accept spelling scope other) :
    found = other := by
  induction levels generalizing viewpoint accept spelling scope found other with
  | zero =>
    refine Lookup.unique (Opening.rightUnique (fun _ _ => ?_) viewpoint) first second
    exact fun _ _ _ impossible => impossible.elim
  | succ levels within =>
    refine Lookup.unique (Opening.rightUnique (fun _ _ => ?_) viewpoint) first second
    exact fun _ _ _ => within

end Single

end Catalogue

end DeclGraph
